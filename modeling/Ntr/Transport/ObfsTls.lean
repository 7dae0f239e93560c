/-
The TLS mode of `transport/obfs/tls.go`: a connection in the clothes of TLS 1.2. The
first bytes of a client hide in the session ticket of a client hello, those of a server
stand behind a server hello, and all that comes later is in records of application data.

* `tls_round_trip`: whatever each end calls and in which order, it reads what the other
  one wrote. A hello holds no more than a chunk of the first write.
-/
import Ntr.Go.Reader
import Ntr.Go.Varint
import Ntr.Lib.Pieces

namespace Ntr.Transport.ObfsTls

open Go List
open Lib Lib.FailState

/-! ### Hellos and records -/

structure Fresh where
  unix : Nat
  random : Str
  sessionID : Str
  length_random : random.length = 28
  length_sessionID : sessionID.length = 32

def cipherSuites : Str :=
  [0xc0, 0x2c, 0xc0, 0x30, 0x00, 0x9f, 0xcc, 0xa9, 0xcc, 0xa8, 0xcc, 0xaa, 0xc0, 0x2b, 0xc0, 0x2f,
   0x00, 0x9e, 0xc0, 0x24, 0xc0, 0x28, 0x00, 0x6b, 0xc0, 0x23, 0xc0, 0x27, 0x00, 0x67, 0xc0, 0x0a,
   0xc0, 0x14, 0x00, 0x39, 0xc0, 0x09, 0xc0, 0x13, 0x00, 0x33, 0x00, 0x9d, 0x00, 0x9c, 0x00, 0x3d,
   0x00, 0x3c, 0x00, 0x35, 0x00, 0x2f, 0x00, 0xff]

/-- A client hello up to the length of the ticket; `n` bytes are to come in the ticket
and the server name. -/
def clientFront (fresh : Fresh) (n : Nat) : Str :=
  [22, 0x03, 0x01] ++ putBE 2 (212 + n) ++ [1, 0] ++ putBE 2 (208 + n) ++ [0x03, 0x03] ++
    putBE 4 fresh.unix ++ fresh.random ++ [32] ++ fresh.sessionID ++ [0x00, 0x38] ++ cipherSuites ++
    [0x01, 0x00] ++ putBE 2 (79 + n) ++ [0x00, 0x23]

/-- The extension of the server name, up to the length of the name. -/
def nameFront (server : Str) : Str :=
  [0x00, 0x00] ++ putBE 2 (server.length + 5) ++ putBE 2 (server.length + 3) ++ [0]

def otherExts : Str :=
  -- ec_point_formats, supported_groups
  [0x00, 0x0b, 0x00, 0x04, 0x03, 0x01, 0x00, 0x02,
   0x00, 0x0a, 0x00, 0x0a, 0x00, 0x08, 0x00, 0x1d, 0x00, 0x17, 0x00, 0x19, 0x00, 0x18,
  -- signature_algorithms
   0x00, 0x0d, 0x00, 0x20, 0x00, 0x1e, 0x06, 0x01, 0x06, 0x02, 0x06, 0x03, 0x05,
   0x01, 0x05, 0x02, 0x05, 0x03, 0x04, 0x01, 0x04, 0x02, 0x04, 0x03, 0x03, 0x01,
   0x03, 0x02, 0x03, 0x03, 0x02, 0x01, 0x02, 0x02, 0x02, 0x03,
  -- encrypt_then_mac, extended_master_secret
   0x00, 0x16, 0x00, 0x00, 0x00, 0x17, 0x00, 0x00]

def sized (b : Str) : Str := putBE 2 b.length ++ b

def makeClientHelloMsg (fresh : Fresh) (data server : Str) : Str :=
  clientFront fresh (data.length + server.length) ++ sized data ++
    (nameFront server ++ sized server ++ otherExts)

/-- A server hello, the change of the cipher, and the record of the first data up to its
length. -/
def serverFront (fresh : Fresh) : Str :=
  [0x16] ++ putBE 2 0x0301 ++ putBE 2 91 ++ [2, 0, 0, 87, 0x03, 0x03] ++ putBE 4 fresh.unix ++
    fresh.random ++ [32] ++ fresh.sessionID ++ [0xcc, 0xa8] ++ [0] ++ [0x00, 0x00] ++
    [0xff, 0x01, 0x00, 0x01, 0x00] ++ [0x00, 0x17, 0x00, 0x00] ++
    [0x00, 0x0b, 0x00, 0x02, 0x01, 0x00] ++
    [0x14, 0x03, 0x03, 0x00, 0x01, 0x01] ++ [0x16, 0x03, 0x03]

def makeServerHello (fresh : Fresh) (data : Str) : Str := serverFront fresh ++ sized data

def appDataFront : Str := [0x17, 0x03, 0x03]

/-- The record that `writeAppData` sends. -/
def appData (b : Str) : Str := appDataFront ++ sized b

lemma length_clientFront (fresh : Fresh) (n : Nat) : (clientFront fresh n).length = 140 := by
  simp [clientFront, cipherSuites, fresh.length_random, fresh.length_sessionID]

lemma length_nameFront (server : Str) : (nameFront server).length = 7 := by
  simp [nameFront]

lemma length_serverFront (fresh : Fresh) : (serverFront fresh).length = 105 := by
  simp [serverFront, fresh.length_random, fresh.length_sessionID]

lemma length_otherExts : otherExts.length = 66 := rfl

/-! ### Records, as they are read -/

section
variable {σ : Type}

section
variable [Reader σ]

/-- What a record still has, into a buffer of `n` bytes. Bytes in front of an error are
left out. -/
def readBody (n length : Nat) : FailState Error (Nat × σ) Str :=
  if n < length then do
    let d ← second (ExceptT.mk fun s => Reader.read s n)
    step fun k => (d, length - d.length, k.2)
  else second (Reader.readFull length)

/-- `readRecord`, into a buffer of `n` bytes. The state is what remains of the record
that is being read, and the stream. -/
def readRecord (n discardN : Nat) : FailState Error (Nat × σ) Str := do
  let _ ← second (Reader.readFull discardN)
  let size ← attempt (second (Reader.readFull 2))
  match size with
  -- an end of the stream here is no error
  | none => pure []
  | some size => readBody n (beNat size)

def readRemain (n : Nat) : FailState Error (Nat × σ) Str := do
  let length ← step fun k => (min k.1 n, k)
  let part ← second (step (Reader.readPart length))
  let _ ← step fun k => ((), k.1 - part.1.length, k.2)
  lift (part.2.elim (.ok part.1) .error)

def skipOtherExts : FailState Error (Nat × σ) Unit := do
  let _ ← readRecord 256 7
  let _ ← second (Reader.readFull (4 * 16 + 2))

end

variable [LawfulReader σ] {t : σ} {a rest x r : Str} {e : Error}

lemma runs_readBody (hempty : LawfulReader.EmptyReads σ) (n : Nat)
    (ht : Reader.source t = ⟨x ++ rest, e⟩) :
    ∃ d r t', Runs (readBody n x.length) (0, t) (.ok d) (r.length, t') ∧
      (0 < n → x ≠ [] → d ≠ []) ∧ (x.length ≤ n → r = []) ∧ x = d ++ r ∧
      Reader.source t' = ⟨r ++ rest, e⟩ := by
  have hbytes : LawfulReader.bytes t = x ++ rest := congrArg Source.bytes ht
  have herr : LawfulReader.readErr t = e := congrArg Source.err ht
  rw [readBody]
  by_cases hlong : n < x.length
  · rw [if_pos hlong]
    have hx : LawfulReader.bytes t ≠ [] := by
      rw [hbytes]
      exact append_ne_nil_of_left_ne_nil (length_pos_iff.mp (by omega)) _
    -- one read of the stream, which ends within the record
    obtain ⟨d, t', hread, hd, hlen, hsplit, herr'⟩ : ∃ d t', Reader.read t n = (.ok d, t') ∧
        (0 < n → d ≠ []) ∧ d.length ≤ n ∧ LawfulReader.bytes t = d ++ LawfulReader.bytes t' ∧
          LawfulReader.readErr t' = LawfulReader.readErr t := by
      rcases Nat.eq_zero_or_pos n with rfl | hn
      · exact ⟨[], t, hempty t hx, fun h => absurd h (Nat.lt_irrefl 0), le_rfl, rfl, rfl⟩
      · rcases LawfulReader.read_cases t hn with ⟨hnil, -⟩ | ⟨d, t', hread, hd, hlen, hb, he⟩
        · exact absurd hnil hx
        · exact ⟨d, t', hread, fun _ => hd, hlen, hb, he⟩
    obtain ⟨r, hxr, ht'⟩ : ∃ r, x = d ++ r ∧ LawfulReader.bytes t' = r ++ rest := by
      rw [hbytes] at hsplit
      rcases append_eq_append_iff.mp hsplit with ⟨c, hc, -⟩ | ⟨c, hc, hb⟩
      · have := congrArg List.length hc
        rw [length_append] at this
        omega
      · exact ⟨c, hc, hb⟩
    have hrun : Runs (ExceptT.mk fun s => Reader.read s n) t (.ok d) t' :=
      ⟨congrArg Prod.fst hread, congrArg Prod.snd hread⟩
    have hleft : x.length - d.length = r.length := by
      rw [hxr, length_append]
      omega
    refine ⟨d, r, t', ?_, fun hn _ => hd hn, fun h => absurd h (Nat.not_le.mpr hlong), hxr, ?_⟩
    · rw [← hleft]
      exact (hrun.second 0).bind runs_step
    · rw [Reader.source, ht', herr', herr]
  · rw [if_neg hlong]
    obtain ⟨t', hrun, ht'⟩ := Reader.exists_runs_readFull ht
    exact ⟨x, [], t', hrun.second 0, fun _ hx => hx, fun _ => rfl, (append_nil x).symm, ht'⟩

/-- **A record**: behind the bytes that are discarded and the length, a read gives a
first part of the data. -/
lemma runs_readRecord (hempty : LawfulReader.EmptyReads σ) (n : Nat) (hlen : x.length < 2 ^ 16)
    (ht : Reader.source t = ⟨a ++ (sized x ++ rest), e⟩) :
    ∃ d r t', Runs (readRecord n a.length) (0, t) (.ok d) (r.length, t') ∧
      (0 < n → x ≠ [] → d ≠ []) ∧ (x.length ≤ n → r = []) ∧ x = d ++ r ∧
      Reader.source t' = ⟨r ++ rest, e⟩ := by
  obtain ⟨t₁, hdiscard, ht₁⟩ := Reader.exists_runs_readFull ht
  rw [sized, append_assoc] at ht₁
  obtain ⟨t₂, hsize, ht₂⟩ := Reader.exists_runs_readFull ht₁
  rw [length_putBE] at hsize
  obtain ⟨d, r, t', hbody, hrest⟩ := runs_readBody hempty n ht₂
  have hnat : beNat (putBE 2 x.length) = x.length := by
    rw [beNat_putBE]
    exact Nat.mod_eq_of_lt hlen
  rw [← hnat] at hbody
  exact ⟨d, r, t', (hdiscard.second 0).bind ((hsize.second 0).attempt.bind hbody), hrest⟩

lemma runs_readRecord_end (ht : Reader.source t = ⟨[], e⟩) (n : Nat) {discardN : Nat}
    (hdiscard : 0 < discardN) : ∃ t', Runs (readRecord n discardN) (0, t) (.error e) (0, t') := by
  obtain ⟨t', hrun⟩ := Reader.runs_readFull_end ht hdiscard
  exact ⟨t', (hrun.second 0).bind_error⟩

lemma runs_readRemain (n : Nat) (hr : r ≠ []) (ht : Reader.source t = ⟨r ++ rest, e⟩) :
    ∃ d r' t', Runs (readRemain n) (r.length, t) (.ok d) (r'.length, t') ∧ (0 < n → d ≠ []) ∧
      r = d ++ r' ∧ Reader.source t' = ⟨r' ++ rest, e⟩ := by
  have hsplit : r ++ rest = r.take n ++ (r.drop n ++ rest) := by
    rw [← append_assoc, take_append_drop]
  rw [hsplit] at ht
  obtain ⟨t', hpart, ht'⟩ := Reader.exists_readPart ht
  rw [length_take, Nat.min_comm] at hpart
  have hstep : Runs (step (Reader.readPart (min r.length n)) : FailState Error σ _) t
      (.ok (r.take n, none)) t' := by
    rw [Runs, outcome_step, after_step, hpart]
    exact ⟨rfl, rfl⟩
  have hleft : r.length - (r.take n).length = (r.drop n).length := by
    rw [length_take, length_drop]
    omega
  refine ⟨r.take n, r.drop n, t', ?_, fun hn hnil => ?_, (take_append_drop n r).symm, ht'⟩
  · rw [← hleft]
    exact runs_step.bind ((hstep.second r.length).bind (runs_step.bind runs_lift))
  · exact (take_eq_nil_iff.mp hnil).elim (Nat.ne_of_gt hn) hr

lemma runs_skipOtherExts (hempty : LawfulReader.EmptyReads σ) {server : Str}
    (hserver : server.length ≤ 256)
    (ht : Reader.source t = ⟨nameFront server ++ (sized server ++ (otherExts ++ rest)), e⟩) :
    ∃ t', Runs skipOtherExts (0, t) (.ok ()) (0, t') ∧ Reader.source t' = ⟨rest, e⟩ := by
  obtain ⟨d, r, t₁, hname, -, hr, -, ht₁⟩ := runs_readRecord hempty 256 (by omega) ht
  obtain rfl := hr hserver
  rw [length_nameFront] at hname
  rw [nil_append] at ht₁
  obtain ⟨t₂, hexts, ht₂⟩ := Reader.exists_runs_readFull ht₁
  rw [length_otherExts] at hexts
  exact ⟨t₂, hname.bind ((hexts.second 0).bind runs_pure), ht₂⟩

end

/-! ### Connections -/

def tlsChunkSize : Nat := 2 ^ 14

def chunks (ps : List Str) : List Str := ps.flatMap (pieces (tlsChunkSize - 1))

variable {σ : Type}

structure TlsClientConn (σ : Type) where
  stream : σ
  server : Str
  remain : Nat := 0
  firstRequest : Bool := true
  firstResponse : Bool := true

namespace TlsClientConn

def on (m : FailState Error (Nat × σ) Str) (c : TlsClientConn σ) :
    Except Error Str × TlsClientConn σ :=
  (m.outcome (c.remain, c.stream),
    { c with remain := (m.after (c.remain, c.stream)).1,
             stream := (m.after (c.remain, c.stream)).2 })

instance instReaderTlsClientConn [Reader σ] : Reader (TlsClientConn σ) where
  read c n :=
    if 0 < c.remain then c.on (readRemain n)
    else if c.firstResponse then { c with firstResponse := false }.on (readRecord n 105)
    else c.on (readRecord n 3)

def writeChunk (fresh : Fresh) (c : TlsClientConn σ) (b : Str) : Str × TlsClientConn σ :=
  if c.firstRequest then (makeClientHelloMsg fresh b c.server, { c with firstRequest := false })
  else (appData b, c)

def write (fresh : Fresh) (c : TlsClientConn σ) (b : Str) : Str × TlsClientConn σ :=
  frames (writeChunk fresh) c (pieces (tlsChunkSize - 1) b)

end TlsClientConn

structure TlsServerConn (σ : Type) where
  stream : σ
  remain : Nat := 0
  firstRequest : Bool := true
  sessionTicketDone : Bool := false
  firstResponse : Bool := true

namespace TlsServerConn

def on (m : FailState Error (Nat × σ) Str) (c : TlsServerConn σ) :
    Except Error Str × TlsServerConn σ :=
  (m.outcome (c.remain, c.stream),
    { c with remain := (m.after (c.remain, c.stream)).1,
             stream := (m.after (c.remain, c.stream)).2 })

instance instReaderTlsServerConn [Reader σ] : Reader (TlsServerConn σ) where
  read c n :=
    if 0 < c.remain then c.on (readRemain n)
    else if c.firstRequest then { c with firstRequest := false }.on (readRecord n (9 * 16 - 4))
    else if ¬ c.sessionTicketDone then
      { c with sessionTicketDone := true }.on (skipOtherExts >>= fun _ => readRecord n 3)
    else c.on (readRecord n 3)

def writeChunk (fresh : Fresh) (c : TlsServerConn σ) (b : Str) : Str × TlsServerConn σ :=
  if c.firstResponse then (makeServerHello fresh b, { c with firstResponse := false })
  else (appData b, c)

def write (fresh : Fresh) (c : TlsServerConn σ) (b : Str) : Str × TlsServerConn σ :=
  frames (writeChunk fresh) c (pieces (tlsChunkSize - 1) b)

end TlsServerConn

/-! ### Calls at one end -/

inductive Call where
  | write (p : Str)
  | read (n : Nat)
  deriving DecidableEq

def payloads : List Call → List Str
  | [] => []
  | .write p :: calls => p :: payloads calls
  | .read _ :: calls => payloads calls

def sizes : List Call → List Nat
  | [] => []
  | .write _ :: calls => sizes calls
  | .read n :: calls => n :: sizes calls

section
variable {κ : Type} [Reader κ] (write : κ → Str → Str × κ)

/-- Calls at one end, in any order: what they read up to an error, whether they came to
one, and what they put on the wire. -/
def run : κ → List Call → (Str × Bool) × Str
  | _, [] => (([], false), [])
  | c, .write p :: calls =>
    ((run (write c p).2 calls).1, (write c p).1 ++ (run (write c p).2 calls).2)
  | c, .read n :: calls =>
    match Reader.read c n with
    | (.error _, c) => (([], true), (run c calls).2)
    | (.ok d, c) => ((d ++ (run c calls).1.1, (run c calls).1.2), (run c calls).2)

variable {R : κ → κ → Prop}

lemma run_fst (hread : ∀ {c c' n}, R c c' →
      (Reader.read c n).1 = (Reader.read c' n).1 ∧ R (Reader.read c n).2 (Reader.read c' n).2)
    (hwrite : ∀ {c c' p}, R c c' → R (write c p).2 c') {c c' : κ} (h : R c c')
    (calls : List Call) : (run write c calls).1 = Reader.drain c' (sizes calls) := by
  induction calls generalizing c c' with
  | nil => rfl
  | cons call calls ih =>
    cases call with
    | write p => exact ih (hwrite h)
    | read n =>
      obtain ⟨hout, hafter⟩ := hread (n := n) h
      rw [run, sizes, Reader.drain]
      rcases hx : Reader.read c n with ⟨x, d⟩
      rcases hx' : Reader.read c' n with ⟨x', d'⟩
      rw [hx, hx'] at hout hafter
      obtain rfl : x = x' := hout
      cases x with
      | error e => rfl
      | ok b =>
        dsimp only
        rw [ih hafter]

lemma run_snd (hread : ∀ {c c' n}, R c c' → R (Reader.read c n).2 c')
    (hwrite : ∀ {c c' p}, R c c' → (write c p).1 = (write c' p).1 ∧ R (write c p).2 (write c' p).2)
    {c c' : κ} (h : R c c') (calls : List Call) :
    (run write c calls).2 = (frames write c' (payloads calls)).1 := by
  induction calls generalizing c c' with
  | nil => rfl
  | cons call calls ih =>
    cases call with
    | write p =>
      obtain ⟨hout, hafter⟩ := hwrite (p := p) h
      rw [run, payloads, frames, hout, ih hafter]
    | read n =>
      have hafter := hread (n := n) h
      rw [run, payloads]
      rcases hx : Reader.read c n with ⟨x, d⟩
      rw [hx] at hafter
      cases x with
      | error e => exact ih hafter
      | ok b => exact ih hafter

end

/-! ### The wire -/

def records (xs : List Str) : Str := (xs.map appData).flatten

/-- **The wire**: the first chunk in a hello, the others in records. -/
def wire (hello : Str → Str) : List Str → Str
  | [] => []
  | x :: xs => hello x ++ records xs

section
variable {κ : Type}

lemma chunks_cons (p : Str) (ps : List Str) :
    chunks (p :: ps) = pieces (tlsChunkSize - 1) p ++ chunks ps :=
  flatMap_cons

lemma frames_chunks (chunk : κ → Str → Str × κ) (c : κ) (ps : List Str) :
    frames (fun c p => frames chunk c (pieces (tlsChunkSize - 1) p)) c ps =
      frames chunk c (chunks ps) := by
  induction ps generalizing c with
  | nil => rfl
  | cons p ps ih => rw [frames, ih, chunks_cons, frames_append]

lemma frames_wire {chunk : κ → Str → Str × κ} {hello : Str → Str} {F L : κ → Prop}
    (hfst : ∀ {c} (x), F c → (chunk c x).1 = hello x ∧ L (chunk c x).2)
    (hlater : ∀ {c} (x), L c → (chunk c x).1 = appData x ∧ L (chunk c x).2) {c : κ}
    (hc : F c) (xs : List Str) : (frames chunk c xs).1 = wire hello xs := by
  have hrecords : ∀ {c : κ} (xs : List Str), L c → (frames chunk c xs).1 = records xs := by
    intro c xs hc
    induction xs generalizing c with
    | nil => rfl
    | cons x xs ih =>
      obtain ⟨hx, hc'⟩ := hlater x hc
      rw [frames, hx, ih hc']
      rfl
  cases xs with
  | nil => rfl
  | cons x xs =>
    obtain ⟨hx, hc'⟩ := hfst x hc
    rw [frames, hx, hrecords xs hc', wire]

def Fit (xs : List Str) : Prop := ∀ x ∈ xs, x ≠ [] ∧ x.length < 2 ^ 16

lemma fit_chunks (ps : List Str) : Fit (chunks ps) := by
  intro x hx
  obtain ⟨p, -, hx⟩ := mem_flatMap.mp hx
  obtain ⟨hne, hlen⟩ := mem_pieces hx
  rw [tlsChunkSize] at hlen
  exact ⟨hne, by omega⟩

lemma flatten_chunks (ps : List Str) : (chunks ps).flatten = ps.flatten := by
  induction ps with
  | nil => rfl
  | cons p ps ih => rw [chunks_cons, flatten_append, flatten_pieces, ih, flatten_cons]

/-- The first chunk behind `front`, with `mid` between it and the records. -/
def opening (front : Str → Str) (mid : Str) : List Str → Str
  | [] => []
  | x :: xs => front x ++ (sized x ++ (mid ++ records xs))

lemma records_eq_opening (xs : List Str) : records xs = opening (fun _ => appDataFront) [] xs := by
  cases xs with
  | nil => rfl
  | cons x xs =>
    rw [records, map_cons, flatten_cons, appData, append_assoc]
    rfl

lemma wire_client (fresh : Fresh) (server : Str) (xs : List Str) :
    wire (makeClientHelloMsg fresh · server) xs =
      opening (fun x => clientFront fresh (x.length + server.length))
        (nameFront server ++ sized server ++ otherExts) xs := by
  cases xs with
  | nil => rfl
  | cons x xs => rw [wire, makeClientHelloMsg, opening, append_assoc, append_assoc]

lemma wire_server (fresh : Fresh) (xs : List Str) :
    wire (makeServerHello fresh) xs = opening (fun _ => serverFront fresh) [] xs := by
  cases xs with
  | nil => rfl
  | cons x xs => rw [wire, makeServerHello, opening, append_assoc, nil_append]

section
variable [LawfulReader σ]

/-- The code reads the first of the chunks that are to come: there is none, or it gives a
first part of it, and the rest is to come, and then `mid` and the records. -/
def Next (m : FailState Error (Nat × σ) Str) (k : Nat × σ) (mid : Str) (e : Error)
    (xs : List Str) (n : Nat) : Prop :=
  (xs = [] ∧ ∃ k', Runs m k (.error e) k') ∨
    ∃ d r xs' t', xs = (d ++ r) :: xs' ∧ Runs m k (.ok d) (r.length, t') ∧ (0 < n → d ≠ []) ∧
      Fit xs' ∧ Reader.source t' = ⟨r ++ (mid ++ records xs'), e⟩

/-- **The next record** is what `readRecord` reads. -/
lemma next_readRecord (hempty : LawfulReader.EmptyReads σ) {front : Str → Str} {mid : Str}
    {discardN : Nat} (hfront : ∀ x, (front x).length = discardN) (hdiscard : 0 < discardN)
    {xs : List Str} (hxs : Fit xs) {t : σ} {e : Error}
    (ht : Reader.source t = ⟨opening front mid xs, e⟩) (n : Nat) :
    Next (readRecord n discardN) (0, t) mid e xs n := by
  cases xs with
  | nil =>
    obtain ⟨t', hrun⟩ := runs_readRecord_end ht n hdiscard
    exact .inl ⟨rfl, _, hrun⟩
  | cons x xs =>
    obtain ⟨hx, hlen⟩ := hxs x mem_cons_self
    obtain ⟨d, r, t', hrun, hd, -, rfl, ht'⟩ := runs_readRecord hempty n hlen ht
    rw [hfront] at hrun
    exact .inr ⟨d, r, xs, t', rfl, hrun, fun hn => hd hn hx,
      fun y hy => hxs y (mem_cons_of_mem _ hy), ht'⟩

lemma length_appDataFront : appDataFront.length = 3 := rfl

lemma next_appData (hempty : LawfulReader.EmptyReads σ) {xs : List Str} (hxs : Fit xs) {t : σ}
    {e : Error} (ht : Reader.source t = ⟨records xs, e⟩) (n : Nat) :
    Next (readRecord n 3) (0, t) [] e xs n := by
  rw [records_eq_opening] at ht
  exact next_readRecord hempty (fun _ => length_appDataFront) (by decide) hxs ht n

lemma Next.behind {m : FailState Error (Nat × σ) Str} {skip : FailState Error (Nat × σ) Unit}
    {k k' : Nat × σ} {mid : Str} {e : Error} {xs : List Str} {n : Nat}
    (hskip : Runs skip k (.ok ()) k') (h : Next m k' mid e xs n) :
    Next (skip >>= fun _ => m) k mid e xs n := by
  rcases h with ⟨hnil, k'', hrun⟩ | ⟨d, r, xs', t', hxs, hrun, hrest⟩
  · exact .inl ⟨hnil, k'', hskip.bind hrun⟩
  · exact .inr ⟨d, r, xs', t', hxs, hskip.bind hrun, hrest⟩

/-- A read, where `b` is to come: it fails where that is nothing, or gives a first part
and the rest is to come. -/
def ReadStep {τ : Type} [Reader τ] (H : τ → Str → Prop) (c : τ) (b : Str) (n : Nat) : Prop :=
  (b = [] ∧ ∃ e c', Reader.read c n = (.error e, c')) ∨
    ∃ d c' b', Reader.read c n = (.ok d, c') ∧ (0 < n → d ≠ []) ∧ b = d ++ b' ∧ H c' b'

variable {τ : Type} [Reader τ] {H : τ → Str → Prop} {c : τ} {m : FailState Error (Nat × σ) Str}
  {k : Nat × σ} {f : Nat × σ → τ} {mid r : Str} {e : Error} {xs : List Str} {t : σ} {n : Nat}

lemma Next.readStep (hread : ∀ {x k'}, Runs m k x k' → Reader.read c n = (x, f k'))
    (h : Next m k mid e xs n)
    (hafter : ∀ {r xs' t'}, Fit xs' → Reader.source t' = ⟨r ++ (mid ++ records xs'), e⟩ →
      H (f (r.length, t')) (r ++ xs'.flatten)) : ReadStep H c xs.flatten n := by
  rcases h with ⟨rfl, k', hrun⟩ | ⟨d, r, xs', t', rfl, hrun, hd, hxs', ht'⟩
  · exact .inl ⟨rfl, e, _, hread hrun⟩
  · refine .inr ⟨d, _, r ++ xs'.flatten, hread hrun, hd, ?_, hafter hxs' ht'⟩
    rw [flatten_cons, append_assoc]

lemma readStep_remain
    (hread : ∀ {x k'}, Runs (readRemain n) (r.length, t) x k' → Reader.read c n = (x, f k'))
    (hr : r ≠ []) {rest b : Str} (ht : Reader.source t = ⟨r ++ rest, e⟩)
    (hafter : ∀ {r t'}, Reader.source t' = ⟨r ++ rest, e⟩ → H (f (r.length, t')) (r ++ b)) :
    ReadStep H c (r ++ b) n := by
  obtain ⟨d, r', t', hrun, hd, rfl, ht'⟩ := runs_readRemain n hr ht
  exact .inr ⟨d, _, r' ++ b, hread hrun, hd, append_assoc _ _ _, hafter ht'⟩

end

end

/-! ### What each end reads -/

section
variable {e : Error}

lemma TlsClientConn.on_of_runs {m : FailState Error (Nat × σ) Str} (c : TlsClientConn σ)
    {x : Except Error Str} {k : Nat × σ} (h : Runs m (c.remain, c.stream) x k) :
    c.on m = (x, { c with remain := k.1, stream := k.2 }) := by
  rw [on, h.1, h.2]

lemma TlsServerConn.on_of_runs {m : FailState Error (Nat × σ) Str} (c : TlsServerConn σ)
    {x : Except Error Str} {k : Nat × σ} (h : Runs m (c.remain, c.stream) x k) :
    c.on m = (x, { c with remain := k.1, stream := k.2 }) := by
  rw [on, h.1, h.2]

variable [LawfulReader σ]

inductive ClientAwaits (fresh : Fresh) (e : Error) : TlsClientConn σ → Str → Prop
  | hello {t : σ} {server : Str} {b : Bool} {xs : List Str} : Fit xs →
      Reader.source t = ⟨wire (makeServerHello fresh) xs, e⟩ →
      ClientAwaits fresh e ⟨t, server, 0, b, true⟩ xs.flatten
  | record {t : σ} {server : Str} {b : Bool} {r : Str} {xs : List Str} : Fit xs →
      Reader.source t = ⟨r ++ records xs, e⟩ →
      ClientAwaits fresh e ⟨t, server, r.length, b, false⟩ (r ++ xs.flatten)

inductive ServerAwaits (fresh : Fresh) (server : Str) (e : Error) : TlsServerConn σ → Str → Prop
  | hello {t : σ} {b : Bool} {xs : List Str} : Fit xs →
      Reader.source t = ⟨wire (makeClientHelloMsg fresh · server) xs, e⟩ →
      ServerAwaits fresh server e ⟨t, 0, true, false, b⟩ xs.flatten
  | ticket {t : σ} {b : Bool} {r : Str} {xs : List Str} : Fit xs →
      Reader.source t = ⟨r ++ (nameFront server ++ sized server ++ otherExts ++ records xs), e⟩ →
      ServerAwaits fresh server e ⟨t, r.length, false, false, b⟩ (r ++ xs.flatten)
  | record {t : σ} {b : Bool} {r : Str} {xs : List Str} : Fit xs →
      Reader.source t = ⟨r ++ records xs, e⟩ →
      ServerAwaits fresh server e ⟨t, r.length, false, true, b⟩ (r ++ xs.flatten)

lemma ClientAwaits.read (hempty : LawfulReader.EmptyReads σ) {fresh : Fresh} {c : TlsClientConn σ}
    {b : Str} (h : ClientAwaits fresh e c b) (n : Nat) : ReadStep (ClientAwaits fresh e) c b n := by
  cases h with
  | @hello t server b xs hxs ht =>
    rw [wire_server] at ht
    have hnext := next_readRecord hempty (fun _ => length_serverFront fresh) (by decide) hxs ht n
    exact hnext.readStep (f := fun k => ⟨k.2, server, k.1, b, false⟩)
      (TlsClientConn.on_of_runs ⟨t, server, 0, b, false⟩) .record
  | @record t server b r xs hxs ht =>
    by_cases hr : r = []
    · subst hr
      exact (next_appData hempty hxs ht n).readStep (f := fun k => ⟨k.2, server, k.1, b, false⟩)
        (TlsClientConn.on_of_runs ⟨t, server, 0, b, false⟩) .record
    · have hremain : 0 < r.length := length_pos_iff.mpr hr
      exact readStep_remain (f := fun k => ⟨k.2, server, k.1, b, false⟩)
        (fun hrun => (if_pos hremain).trans (TlsClientConn.on_of_runs _ hrun)) hr ht (.record hxs)

lemma ServerAwaits.read (hempty : LawfulReader.EmptyReads σ) {fresh : Fresh} {server : Str}
    (hserver : server.length ≤ 256) {c : TlsServerConn σ} {b : Str}
    (h : ServerAwaits fresh server e c b) (n : Nat) :
    ReadStep (ServerAwaits fresh server e) c b n := by
  cases h with
  | @hello t b xs hxs ht =>
    rw [wire_client] at ht
    have hnext := next_readRecord hempty (fun _ => length_clientFront fresh _) (by decide) hxs ht n
    exact hnext.readStep (f := fun k => ⟨k.2, k.1, false, false, b⟩)
      (TlsServerConn.on_of_runs ⟨t, 0, false, false, b⟩) .ticket
  | @ticket t b r xs hxs ht =>
    by_cases hr : r = []
    · subst hr
      -- the rest of the hello, and then the first record
      rw [nil_append, append_assoc, append_assoc] at ht
      obtain ⟨t₁, hskip, ht₁⟩ := runs_skipOtherExts hempty hserver ht
      exact ((next_appData hempty hxs ht₁ n).behind hskip).readStep
        (f := fun k => ⟨k.2, k.1, false, true, b⟩)
        (TlsServerConn.on_of_runs ⟨t, 0, false, true, b⟩) .record
    · have hremain : 0 < r.length := length_pos_iff.mpr hr
      exact readStep_remain (f := fun k => ⟨k.2, k.1, false, false, b⟩)
        (fun hrun => (if_pos hremain).trans (TlsServerConn.on_of_runs _ hrun)) hr ht (.ticket hxs)
  | @record t b r xs hxs ht =>
    by_cases hr : r = []
    · subst hr
      exact (next_appData hempty hxs ht n).readStep (f := fun k => ⟨k.2, k.1, false, true, b⟩)
        (TlsServerConn.on_of_runs ⟨t, 0, false, true, b⟩) .record
    · have hremain : 0 < r.length := length_pos_iff.mpr hr
      exact readStep_remain (f := fun k => ⟨k.2, k.1, false, true, b⟩)
        (fun hrun => (if_pos hremain).trans (TlsServerConn.on_of_runs _ hrun)) hr ht (.record hxs)

end

/-! ### What each end writes -/

namespace TlsClientConn

variable (fresh : Fresh)

/-- `ClientWrap`. -/
def start (t : σ) (server : Str) : TlsClientConn σ := { stream := t, server := server }

lemma frames_start (t : σ) (server : Str) (xs : List Str) :
    (frames (writeChunk fresh) (start t server) xs).1 =
      wire (makeClientHelloMsg fresh · server) xs := by
  refine frames_wire (F := fun c => c.server = server ∧ c.firstRequest = true)
    (L := fun c => c.firstRequest = false) ?_ ?_ ⟨rfl, rfl⟩ xs
  · rintro c x ⟨rfl, hfirst⟩
    rw [writeChunk, if_pos hfirst]
    exact ⟨rfl, rfl⟩
  · intro c x hlater
    rw [writeChunk, if_neg (by rw [hlater]; exact Bool.false_ne_true)]
    exact ⟨rfl, hlater⟩

lemma write_snd (c : TlsClientConn σ) (p : Str) :
    ∃ b, (write fresh c p).2 = { c with firstRequest := b } := by
  refine frames_keeps (P := fun c' => ∃ b, c' = { c with firstRequest := b }) ?_
    ⟨c.firstRequest, rfl⟩ _
  rintro c' x ⟨b, rfl⟩
  cases b with
  | false => exact ⟨false, rfl⟩
  | true => exact ⟨false, rfl⟩

def SameWriter (c c' : TlsClientConn σ) : Prop :=
  c.server = c'.server ∧ c.firstRequest = c'.firstRequest

lemma write_congr {c c' : TlsClientConn σ} (h : SameWriter c c') (p : Str) :
    (write fresh c p).1 = (write fresh c' p).1 ∧
      SameWriter (write fresh c p).2 (write fresh c' p).2 := by
  refine frames_congr (fun {c c' x} h => ?_) h _
  rw [writeChunk, writeChunk, h.1, h.2]
  split_ifs
  · exact ⟨rfl, rfl, rfl⟩
  · exact ⟨rfl, h⟩

variable [Reader σ]

lemma read_firstRequest (c : TlsClientConn σ) (b : Bool) (n : Nat) :
    Reader.read { c with firstRequest := b } n =
      ((Reader.read c n).1, { (Reader.read c n).2 with firstRequest := b }) := by
  simp only [Reader.read]
  split_ifs <;> rfl

lemma read_sameWriter (c : TlsClientConn σ) (n : Nat) : SameWriter (Reader.read c n).2 c := by
  simp only [Reader.read]
  split_ifs <;> exact ⟨rfl, rfl⟩

lemma run_start (t : σ) (server : Str) (calls : List Call) :
    run (write fresh) (start t server) calls = (Reader.drain (start t server) (sizes calls),
        wire (makeClientHelloMsg fresh · server) (chunks (payloads calls))) := by
  refine Prod.ext ?_ ?_
  · refine run_fst _ (R := fun c c' => ∃ b, c = { c' with firstRequest := b }) ?_ ?_
      ⟨true, rfl⟩ calls
    · rintro c c' n ⟨b, rfl⟩
      rw [read_firstRequest]
      exact ⟨rfl, b, rfl⟩
    · rintro c c' p ⟨b, rfl⟩
      exact write_snd fresh _ p
  · have hread : ∀ {c c' : TlsClientConn σ} {n}, SameWriter c c' →
        SameWriter (Reader.read c n).2 c' := fun {c _ n} h =>
      ⟨(read_sameWriter c n).1.trans h.1, (read_sameWriter c n).2.trans h.2⟩
    calc (run (write fresh) (start t server) calls).2
        = (frames (write fresh) (start t server) (payloads calls)).1 :=
          run_snd _ hread (fun h => write_congr fresh h _) ⟨rfl, rfl⟩ calls
      _ = (frames (writeChunk fresh) (start t server) (chunks (payloads calls))).1 :=
          congrArg Prod.fst (frames_chunks _ _ _)
      _ = wire (makeClientHelloMsg fresh · server) (chunks (payloads calls)) :=
          frames_start fresh t server _

end TlsClientConn

namespace TlsServerConn

variable (fresh : Fresh)

/-- `ServerWrap`. -/
def start (t : σ) : TlsServerConn σ := { stream := t }

lemma frames_start (t : σ) (xs : List Str) :
    (frames (writeChunk fresh) (start t) xs).1 = wire (makeServerHello fresh) xs := by
  refine frames_wire (F := fun c => c.firstResponse = true) (L := fun c => c.firstResponse = false)
    ?_ ?_ rfl xs
  · intro c x hfirst
    rw [writeChunk, if_pos hfirst]
    exact ⟨rfl, rfl⟩
  · intro c x hlater
    rw [writeChunk, if_neg (by rw [hlater]; exact Bool.false_ne_true)]
    exact ⟨rfl, hlater⟩

lemma write_snd (c : TlsServerConn σ) (p : Str) :
    ∃ b, (write fresh c p).2 = { c with firstResponse := b } := by
  refine frames_keeps (P := fun c' => ∃ b, c' = { c with firstResponse := b }) ?_
    ⟨c.firstResponse, rfl⟩ _
  rintro c' x ⟨b, rfl⟩
  cases b with
  | false => exact ⟨false, rfl⟩
  | true => exact ⟨false, rfl⟩

def SameWriter (c c' : TlsServerConn σ) : Prop := c.firstResponse = c'.firstResponse

lemma write_congr {c c' : TlsServerConn σ} (h : SameWriter c c') (p : Str) :
    (write fresh c p).1 = (write fresh c' p).1 ∧
      SameWriter (write fresh c p).2 (write fresh c' p).2 := by
  refine frames_congr (fun {c c' x} (h : c.firstResponse = _) => ?_) h _
  rw [writeChunk, writeChunk, h]
  split_ifs
  · exact ⟨rfl, rfl⟩
  · exact ⟨rfl, h⟩

variable [Reader σ]

lemma read_firstResponse (c : TlsServerConn σ) (b : Bool) (n : Nat) :
    Reader.read { c with firstResponse := b } n =
      ((Reader.read c n).1, { (Reader.read c n).2 with firstResponse := b }) := by
  simp only [Reader.read]
  split_ifs <;> rfl

lemma read_sameWriter (c : TlsServerConn σ) (n : Nat) : SameWriter (Reader.read c n).2 c := by
  simp only [Reader.read]
  split_ifs <;> rfl

lemma run_start (t : σ) (calls : List Call) : run (write fresh) (start t) calls =
    (Reader.drain (start t) (sizes calls),
      wire (makeServerHello fresh) (chunks (payloads calls))) := by
  refine Prod.ext ?_ ?_
  · refine run_fst _ (R := fun c c' => ∃ b, c = { c' with firstResponse := b }) ?_ ?_
      ⟨true, rfl⟩ calls
    · rintro c c' n ⟨b, rfl⟩
      rw [read_firstResponse]
      exact ⟨rfl, b, rfl⟩
    · rintro c c' p ⟨b, rfl⟩
      exact write_snd fresh _ p
  · have hread : ∀ {c c' : TlsServerConn σ} {n}, SameWriter c c' →
        SameWriter (Reader.read c n).2 c' := fun {c _ n} h => (read_sameWriter c n).trans h
    calc (run (write fresh) (start t) calls).2
        = (frames (write fresh) (start t) (payloads calls)).1 :=
          run_snd _ hread (fun h => write_congr fresh h _) rfl calls
      _ = (frames (writeChunk fresh) (start t) (chunks (payloads calls))).1 :=
          congrArg Prod.fst (frames_chunks _ _ _)
      _ = wire (makeServerHello fresh) (chunks (payloads calls)) := frames_start fresh t _

end TlsServerConn

/-! ### Round trips -/

/-- What calls at one end come to: the bytes `sent` go over the wire, and of the bytes
`incoming` the reads give a first part in order, all of it by the time that they end, and
they end when there are more reads with room for a byte than bytes. -/
structure Serves (result : (Str × Bool) × Str) (calls : List Call) (sent incoming : Str) :
    Prop where
  sends : result.2 = sent
  inOrder : result.1.1 <+: incoming
  complete : result.1.2 = true → result.1.1 = incoming
  ends : incoming.length < (sizes calls).countP (0 < ·) → result.1.2 = true

/-- **The TLS mode** carries both directions: whatever each end calls and in which order,
and however the transport cuts the bytes, each end reads what the other one wrote. The
first chunk of a direction is in the hello, all others are in records of application
data. -/
theorem tls_round_trip (server : Str) (hserver : server.length ≤ 256) (fresh fresh' : Fresh)
    (calls calls' : List Call) :
    (∀ {σ : Type} [LawfulReader σ], LawfulReader.EmptyReads σ → ∀ {t : σ} {e : Error},
      Reader.source t = ⟨wire (makeServerHello fresh') (chunks (payloads calls')), e⟩ →
        Serves (run (TlsClientConn.write fresh) (TlsClientConn.start t server) calls) calls
          (wire (makeClientHelloMsg fresh · server) (chunks (payloads calls)))
          (payloads calls').flatten) ∧
      (∀ {σ : Type} [LawfulReader σ], LawfulReader.EmptyReads σ → ∀ {t : σ} {e : Error},
        Reader.source t = ⟨wire (makeClientHelloMsg fresh · server) (chunks (payloads calls)), e⟩ →
          Serves (run (TlsServerConn.write fresh') (TlsServerConn.start t) calls') calls'
            (wire (makeServerHello fresh') (chunks (payloads calls')))
            (payloads calls).flatten) := by
  constructor
  · intro σ _ hempty t e ht
    rw [TlsClientConn.run_start, ← flatten_chunks (payloads calls')]
    obtain ⟨hpre, hall, hend⟩ := Reader.drain_of_reads (P := fun _ => True)
      (fun h _ => ClientAwaits.read hempty h _)
      (ClientAwaits.hello (fit_chunks (payloads calls')) ht)
      (fun n (_ : n ∈ sizes calls) => trivial)
    exact ⟨rfl, hpre, hall, hend⟩
  · intro σ _ hempty t e ht
    rw [TlsServerConn.run_start, ← flatten_chunks (payloads calls)]
    obtain ⟨hpre, hall, hend⟩ := Reader.drain_of_reads (P := fun _ => True)
      (fun h _ => ServerAwaits.read hempty hserver h _)
      (ServerAwaits.hello (fit_chunks (payloads calls)) ht)
      (fun n (_ : n ∈ sizes calls') => trivial)
    exact ⟨rfl, hpre, hall, hend⟩

def zeroFresh : Fresh := ⟨0, List.replicate 28 0, List.replicate 32 0, rfl, rfl⟩

/-- A request in two writes, and an answer that is read byte by byte. -/
def askCalls : List Call := [.write [1, 2], .read 0, .write [3], .read 1, .read 1, .read 1]

def answerCalls : List Call := [.read 1, .read 5, .write [4, 5], .read 5, .read 5]

/-- The calls at both ends, over a transport that gives all that it has. -/
theorem tls_round_trip_answer : (lit "bing.com").length ≤ 256 ∧
    Serves (run (TlsClientConn.write zeroFresh)
      (TlsClientConn.start (⟨makeServerHello zeroFresh [4, 5], .eof⟩ : Source) (lit "bing.com"))
      askCalls) askCalls
      (makeClientHelloMsg zeroFresh [1, 2] (lit "bing.com") ++ appData [3]) [4, 5] ∧
    Serves (run (TlsServerConn.write zeroFresh) (TlsServerConn.start
      (⟨makeClientHelloMsg zeroFresh [1, 2] (lit "bing.com") ++ appData [3], .eof⟩ : Source))
      answerCalls) answerCalls (makeServerHello zeroFresh [4, 5]) [1, 2, 3] := by
  have hserver : (lit "bing.com").length ≤ 256 := by decide
  have hempty : LawfulReader.EmptyReads Source := fun s hs => if_neg hs
  have hup : wire (makeClientHelloMsg zeroFresh · (lit "bing.com")) (chunks (payloads askCalls)) =
      makeClientHelloMsg zeroFresh [1, 2] (lit "bing.com") ++ appData [3] := by
    simp [askCalls, payloads, chunks, pieces, tlsChunkSize, wire, records]
  have hdown : wire (makeServerHello zeroFresh) (chunks (payloads answerCalls)) =
      makeServerHello zeroFresh [4, 5] := by
    simp [answerCalls, payloads, chunks, pieces, tlsChunkSize, wire, records]
  obtain ⟨hclient, hserver'⟩ := tls_round_trip _ hserver zeroFresh zeroFresh askCalls answerCalls
  rw [hup, hdown] at hclient hserver'
  exact ⟨hserver, hclient hempty rfl, hserver' hempty rfl⟩

lemma length_makeClientHelloMsg (fresh : Fresh) (data server : Str) :
    (makeClientHelloMsg fresh data server).length = 217 + data.length + server.length := by
  simp only [makeClientHelloMsg, sized, length_append, length_clientFront, length_putBE,
    length_nameFront, length_otherExts]
  omega

lemma length_records (xs : List Str) : (records xs).length = 5 * xs.length + xs.flatten.length := by
  induction xs with
  | nil => rfl
  | cons x xs ih =>
    rw [records, map_cons, flatten_cons, length_append, ← records, ih, appData,
      sized, length_append, length_append, length_putBE, length_appDataFront, flatten_cons,
      length_append, length_cons]
    omega

/-- A first write of more than a chunk is not all in the ticket: what is behind the first
chunk has headers of its own. -/
lemma write_ne_makeClientHelloMsg (fresh : Fresh) (t : σ) (server : Str) {p : Str}
    (hp : tlsChunkSize < p.length) :
    (TlsClientConn.write fresh (TlsClientConn.start t server) p).1 ≠
      makeClientHelloMsg fresh p server := by
  have hne : p ≠ [] := length_pos_iff.mp (by omega)
  have hlater : p.drop (tlsChunkSize - 1 + 1) ≠ [] := by
    rw [Ne, drop_eq_nil_iff]
    exact Nat.not_le.mpr hp
  have hmore : 0 < (pieces (tlsChunkSize - 1) (p.drop (tlsChunkSize - 1 + 1))).length := by
    rw [pieces_of_ne_nil _ hlater]
    exact Nat.succ_pos _
  have hwire : (TlsClientConn.write fresh (TlsClientConn.start t server) p).1 =
      makeClientHelloMsg fresh (p.take (tlsChunkSize - 1 + 1)) server ++
        records (pieces (tlsChunkSize - 1) (p.drop (tlsChunkSize - 1 + 1))) := by
    rw [TlsClientConn.write, TlsClientConn.frames_start, pieces_of_ne_nil _ hne, wire]
  intro h
  have hlen := congrArg List.length (hwire.symm.trans h)
  rw [length_append, length_makeClientHelloMsg, length_makeClientHelloMsg, length_records,
    flatten_pieces, length_take, length_drop] at hlen
  omega

theorem firstWrite_beyond_ticket :
    (TlsClientConn.write zeroFresh (TlsClientConn.start () []) (List.replicate 16385 0)).1 ≠
      makeClientHelloMsg zeroFresh (List.replicate 16385 0) [] :=
  write_ne_makeClientHelloMsg zeroFresh () []
    (by rw [length_replicate, tlsChunkSize]; exact Nat.lt_succ_self _)

end Ntr.Transport.ObfsTls
