/-
One direction of the mirror (`transport/tlsmirror/mirror.go`): the worker reads TLS
records from one side, and the writer takes them off a queue to the other side. Where
the stream is not, or is no longer, one of records, the rest is copied as it is.

* `Mirror.step`: the worker, the writer, and the end of the mirror from outside, in
  any order;
* `mirror_transparent_iff`: a stream without covert and alert records comes out as it
  went in, unless it does not start with a handshake record and its first five bytes
  come in more than one read. What was forwarded of them is then written again.
-/
import Ntr.Transport.TlsRecord

namespace Ntr.Transport.TlsMirror

open Go List

/-! ### Hellos -/

inductive Direction where
  | c2s
  | s2c
  deriving DecidableEq

def parseClientRandom (fragment : Str) : Option Str :=
  if fragment.length < 38 ∨ fragment.headD 0 ≠ 1 then none else some ((fragment.drop 6).take 32)

/-- `parseServerHello`: the random and the cipher suite. -/
def parseServerHello (fragment : Str) : Option (Str × UInt16) :=
  if fragment.length < 41 ∨ fragment.headD 0 ≠ 2 then none
  else
    let offset := 39 + ((fragment.drop 38).headD 0).toNat
    if fragment.length < offset + 2 then none
    else some ((fragment.drop 6).take 32, uint16 ((fragment.drop offset).take 2))

/-- The first record of the direction is the hello that the worker wants. -/
def helloOK : Direction → Str → Bool
  | .c2s, fragment => (parseClientRandom fragment).isSome
  | .s2c, fragment => (parseServerHello fragment).isSome

def hasZeroExplicitNonce (fragment : Str) : Bool :=
  8 ≤ fragment.length && (fragment.take 8).all (· == 0)

/-! ### The machine -/

/-- A reader over the bytes that are left in the buffer of the capture, and then the
connection: `io.MultiReader` under a `bufio.Reader`. -/
structure Buffered (σ : Type) where
  rest : Str
  src : σ

instance instLawfulReaderBuffered {σ : Type} [LawfulReader σ] : LawfulReader (Buffered σ) where
  read b n :=
    if b.rest = [] then ((Reader.read b.src n).1, ⟨[], (Reader.read b.src n).2⟩)
    else (.ok (b.rest.take n), ⟨b.rest.drop n, b.src⟩)
  bytes b := b.rest ++ LawfulReader.bytes b.src
  readErr b := LawfulReader.readErr b.src
  read_cases b n hn := by
    by_cases hrest : b.rest = []
    · rw [if_pos hrest, hrest, nil_append]
      rcases LawfulReader.read_cases b.src hn with
        ⟨hnil, hread⟩ | ⟨d, s, hread, hd, hlen, hbytes, herr⟩
      · refine .inl ⟨hnil, ?_⟩
        rw [hread, ← hrest]
      · refine .inr ⟨d, ⟨[], s⟩, ?_, hd, hlen, hbytes, herr⟩
        rw [hread]
    · rw [if_neg hrest]
      refine .inr ⟨_, _, rfl, ?_, length_take_le _ _, ?_, rfl⟩
      · rw [Ne, take_eq_nil_iff]
        exact fun hnil => hnil.elim (Nat.ne_of_gt hn) hrest
      · rw [← append_assoc, take_append_drop]

/-- `writeTask`. A task with the rest of the stream is the last one of its worker. -/
structure Task where
  record : Option Record := none
  raw : Str := []
  fallback : Bool := false

inductive Phase (σ : Type) where
  /-- The first record is being read; the bytes so far have been forwarded. -/
  | capture (copied : Str) (src : σ)
  /-- Worker and writer are at work. -/
  | mirror (ccsWasLast : Bool) (src : Buffered σ)
  /-- The worker has left the rest of the stream to the writer. -/
  | handedOver (src : Buffered σ)
  /-- The rest of the stream is copied. -/
  | copy (src : Buffered σ)
  /-- The direction has come to its own end, and has cancelled the mirror. -/
  | done
  /-- The mirror was cancelled from outside. -/
  | cancelled

/-- A direction of the mirror: its phase, the queue and what was written. -/
structure Mirror (σ : Type) where
  phase : Phase σ
  queue : List Task := []
  out : Str := []

/-- The direction, and the records that the hidden connection takes out of it. -/
structure Hooks where
  dir : Direction
  covert : Record → Bool

/-- The moves of a direction. A read of the worker finds that the server's hello has
been seen, or not, and that it chose a cipher suite with explicit nonces, or not. -/
inductive Move where
  | read (explicitReady tls12Explicit : Bool)
  | write
  | cancel
  deriving DecidableEq

namespace Mirror

variable {σ : Type} [Reader σ]

/-- A round of `captureFirstHandshakeRecord`, and what the worker does with its
result. -/
def captureStep (dir : Direction) (m : Mirror σ) (copied : Str) (src : σ) : Mirror σ :=
  match Reader.read src (65536 - copied.length) with
  | (.error _, _) => { m with phase := .done }
  | (.ok d, src) =>
    match peekFirst (copied ++ d) with
    | .needMore => { m with phase := .capture (copied ++ d) src, out := m.out ++ d }
    | .bad _ =>
      -- not TLS: the whole buffer is written, also what was forwarded before
      { m with phase := .copy ⟨[], src⟩, out := m.out ++ (copied ++ d) }
    | .found r processed =>
      let raw := ((copied ++ d).take processed).drop copied.length
      let rest := (copied ++ d).drop processed
      if helloOK dir r.fragment then
        { m with phase := .mirror false ⟨rest, src⟩, out := m.out ++ raw }
      else { m with phase := .copy ⟨rest, src⟩, out := m.out ++ raw }

/-- A round of `c2sWorker` or `s2cWorker`. -/
def readStep [Reader (Buffered σ)] (h : Hooks) (m : Mirror σ) (ccsWasLast : Bool)
    (src : Buffered σ) (explicitReady tls12Explicit : Bool) : Mirror σ :=
  match readRecord src with
  | ((.error _, raw), src) =>
    { m with phase := .handedOver src, queue := m.queue ++ [⟨none, raw, true⟩] }
  | ((.ok r, _), src) =>
    if r.recordType = recordTypeHandshake ∧ ccsWasLast ∧ ¬ hasZeroExplicitNonce r.fragment then
      { m with phase := .handedOver src, queue := m.queue ++ [⟨some r, [], true⟩] }
    else if h.dir = .c2s ∧ r.recordType = recordTypeChangeCipherSpec ∧ ¬ explicitReady then
      { m with phase := .handedOver src, queue := m.queue ++ [⟨some r, [], true⟩] }
    else if h.covert r then { m with phase := .mirror ccsWasLast src }
    else
      { m with
        phase := .mirror (r.recordType == recordTypeChangeCipherSpec && tls12Explicit) src
        queue := m.queue ++ [⟨some r, [], false⟩] }

/-- The record of a task is written: what was written, or that the mirror ends here. -/
def writeTask (t : Task) : Str × Bool :=
  match t.record with
  | none => (t.raw, false)
  | some r =>
    match writeRecord r with
    | .error _ => ([], true)
    | .ok b => if r.recordType = recordTypeAlert then (b, true) else (b ++ t.raw, false)

/-- A round of `recordWriter`; `next` is the phase behind a task that does not end the
mirror. -/
def writeStep (m : Mirror σ) (next : Task → Phase σ) : Mirror σ :=
  match m.queue with
  | [] => m
  | t :: q =>
    { phase := if (writeTask t).2 then .done else next t
      queue := q
      out := m.out ++ (writeTask t).1 }

/-- A round of `copyFlush`. -/
def copyStep [Reader (Buffered σ)] (m : Mirror σ) (src : Buffered σ) : Mirror σ :=
  match Reader.read src (32 * 1024) with
  | (.error _, _) => { m with phase := .done }
  | (.ok d, src) => { m with phase := .copy src, out := m.out ++ d }

def step [Reader (Buffered σ)] (h : Hooks) (m : Mirror σ) : Move → Mirror σ
  | .cancel =>
    match m.phase with
    | .done => m
    | _ => { m with phase := .cancelled }
  | .read explicitReady tls12Explicit =>
    match m.phase with
    | .capture copied src => m.captureStep h.dir copied src
    | .mirror ccsWasLast src => m.readStep h ccsWasLast src explicitReady tls12Explicit
    | .copy src => m.copyStep src
    | _ => m
  | .write =>
    match m.phase with
    | .mirror ccsWasLast src => m.writeStep fun _ => .mirror ccsWasLast src
    | .handedOver src => m.writeStep fun t => if t.fallback then .copy src else .handedOver src
    | _ => m

def run [Reader (Buffered σ)] (h : Hooks) (m : Mirror σ) (moves : List Move) : Mirror σ :=
  moves.foldl (step h) m

end Mirror

/-! ### Transparency -/

def Mirror.start {σ : Type} (src : σ) : Mirror σ := ⟨.capture [] src, [], []⟩

section
variable {σ : Type} [LawfulReader σ]

/-- Whatever the order of the moves, what was written is a first part of the input, it
is the input when the direction has come to its end, and unless the mirror is
cancelled from outside it can come to its end. -/
def Transparent (h : Hooks) (src : σ) : Prop :=
  ∀ moves, ((Mirror.start src).run h moves).out <+: LawfulReader.bytes src ∧
    (((Mirror.start src).run h moves).phase = .done →
      ((Mirror.start src).run h moves).out = LawfulReader.bytes src) ∧
    (((Mirror.start src).run h moves).phase ≠ .cancelled →
      ∃ more, (((Mirror.start src).run h moves).run h more).phase = .done)

/-- None of the records that the bytes start with is covert, and none is an alert. -/
def Plain (h : Hooks) (b : Str) : Prop :=
  ∀ r, InFrames b r → h.covert r = false ∧ r.recordType ≠ recordTypeAlert

/-- The stream does not start with five bytes that are no header of a handshake
record, or the first read brings them all. -/
def FirstReadOK (src : σ) : Prop :=
  (peekFirst (LawfulReader.bytes src)).isBad = false ∨
    ∀ d src', Reader.read src 65536 = (.ok d, src') → 5 ≤ d.length

/-- A task in the queue that does not end the mirror. -/
def Task.Fine (t : Task) : Prop :=
  ∀ r, t.record = some r → r.fragment.length ≤ maxTLSRecordPayload ∧ r.recordType ≠ recordTypeAlert

def Task.bytes (t : Task) : Str := (t.record.map Record.bytes).getD [] ++ t.raw

lemma writeTask_eq {t : Task} (ht : t.Fine) : Mirror.writeTask t = (t.bytes, false) := by
  rw [Mirror.writeTask, Task.bytes]
  cases hr : t.record with
  | none => rfl
  | some r =>
    obtain ⟨hlen, halert⟩ := ht r hr
    dsimp only
    rw [writeRecord, if_neg (Nat.not_lt.mpr hlen)]
    dsimp only
    rw [if_neg halert]
    rfl

/-- What was written, what is queued and what is to come are together the input. -/
inductive Conserved (h : Hooks) (input : Str) : Mirror σ → Prop
  | capture {copied : Str} {src : σ} :
      copied ++ LawfulReader.bytes src = input → peekFirst copied = .needMore →
      (copied = [] → FirstReadOK src) → (copied ≠ [] → (peekFirst input).isBad = false) →
      Conserved h input ⟨.capture copied src, [], copied⟩
  | mirror {ccsWasLast : Bool} {src : Buffered σ} {queue : List Task} {out : Str} :
      out ++ (queue.flatMap Task.bytes ++ LawfulReader.bytes src) = input →
      (∀ t ∈ queue, t.Fine ∧ t.fallback = false) → Plain h (LawfulReader.bytes src) →
      Conserved h input ⟨.mirror ccsWasLast src, queue, out⟩
  | handedOver {src : Buffered σ} {queue : List Task} {last : Task} {out : Str} :
      out ++ ((queue ++ [last]).flatMap Task.bytes ++ LawfulReader.bytes src) = input →
      (∀ t ∈ queue, t.Fine ∧ t.fallback = false) → last.Fine → last.fallback = true →
      Conserved h input ⟨.handedOver src, queue ++ [last], out⟩
  | copy {src : Buffered σ} {queue : List Task} {out : Str} :
      out ++ LawfulReader.bytes src = input → Conserved h input ⟨.copy src, queue, out⟩
  | done {queue : List Task} : Conserved h input ⟨.done, queue, input⟩
  | cancelled {queue : List Task} {out : Str} :
      out <+: input → Conserved h input ⟨.cancelled, queue, out⟩

variable {h : Hooks} {input : Str}

lemma five_le_of_isBad {a : Str} (hbad : (peekFirst a).isBad = true) : 5 ≤ a.length := by
  by_contra hshort
  rw [isBad_of_short (Nat.not_le.mp hshort)] at hbad
  cases hbad

lemma Plain.tail {b rest : Str} {r : Record} (hb : Plain h b)
    (hsplit : splitRecord b = some (r, rest)) : Plain h rest :=
  fun r' hr' => hb r' (.tail hsplit hr')

variable {copied out : Str} {queue : List Task} {src : Buffered σ} {m : Mirror σ}

/-- **Step lemma**, the capture of the first record. -/
lemma conserved_captureStep (hplain : (peekFirst input).isBad = false → Plain h input)
    {src : σ} (hin : copied ++ LawfulReader.bytes src = input)
    (hmore : peekFirst copied = .needMore) (hfirst : copied = [] → FirstReadOK src)
    (hgood : copied ≠ [] → (peekFirst input).isBad = false) :
    Conserved h input (Mirror.captureStep h.dir ⟨.capture copied src, [], copied⟩ copied src) := by
  have hsize : 0 < 65536 - copied.length := by
    have hlen := length_of_needMore hmore
    rw [maxTLSRecordPayload] at hlen
    omega
  rw [Mirror.captureStep]
  rcases LawfulReader.read_cases src hsize with ⟨hnil, hread⟩ | ⟨d, src', hread, hd, -, hbytes, -⟩
  · rw [hread]
    rw [hnil, append_nil] at hin
    rw [hin]
    exact .done
  · have hall : (copied ++ d) ++ LawfulReader.bytes src' = input := by
      rw [append_assoc, ← hbytes, hin]
    rw [hread]
    dsimp only
    cases hpeek : peekFirst (copied ++ d) with
    | needMore =>
      refine .capture hall hpeek (fun hnil => absurd (append_eq_nil_iff.mp hnil).2 hd) fun _ => ?_
      by_cases hc : copied = []
      · -- the first read: it brought five good bytes, or the input is good
        subst hc
        rw [nil_append] at hin hpeek hall
        rcases hfirst rfl with hgood | hfive
        · rw [← hin]
          exact hgood
        · rw [← hall, isBad_append (hfive d src' hread), hpeek]
          rfl
      · exact hgood hc
    | bad e =>
      have hbad : (peekFirst (copied ++ d)).isBad = true := by rw [hpeek]; rfl
      have hinput : (peekFirst input).isBad = true := by
        rw [← hall, isBad_append (five_le_of_isBad hbad), hbad]
      by_cases hc : copied = []
      · subst hc
        exact .copy hall
      · rw [hgood hc] at hinput
        cases hinput
    | found r n =>
      obtain ⟨hn, hsplit⟩ := peekFirst_found hpeek
      have hcn := length_le_of_found hmore hpeek
      have hraw : copied ++ ((copied ++ d).take n).drop copied.length = (copied ++ d).take n := by
        have htake : ((copied ++ d).take n).take copied.length = copied := by
          rw [take_take, Nat.min_eq_left hcn, take_left]
        conv_lhs => rw [← htake]
        rw [htake, ← take_append_drop copied.length ((copied ++ d).take n), htake]
        simp
      have hrest : (copied ++ d).take n ++
          ((copied ++ d).drop n ++ LawfulReader.bytes src') = input := by
        rw [← append_assoc, take_append_drop, hall]
      have hfound : (peekFirst input).isBad = false := by
        have hgoodbuf : (peekFirst (copied ++ d)).isBad = false := by rw [hpeek]; rfl
        have hfive : 5 ≤ (copied ++ d).length := by
          by_contra hshort
          rw [peekFirst_of_short (Nat.not_le.mp hshort)] at hpeek
          cases hpeek
        rw [← hall, isBad_append hfive, hgoodbuf]
      dsimp only
      rw [hraw]
      split_ifs
      · refine .mirror hrest (fun t ht => by cases ht) ?_
        have htail := hsplit (LawfulReader.bytes src')
        rw [hall] at htail
        exact (hplain hfound).tail htail
      · exact .copy hrest

/-- **Step lemma**, the worker. -/
lemma conserved_readStep {ccsWasLast : Bool}
    (hin : out ++ (queue.flatMap Task.bytes ++ LawfulReader.bytes src) = input)
    (hq : ∀ t ∈ queue, t.Fine ∧ t.fallback = false) (hplain : Plain h (LawfulReader.bytes src))
    (explicitReady tls12Explicit : Bool) :
    Conserved h input (Mirror.readStep h ⟨.mirror ccsWasLast src, queue, out⟩ ccsWasLast src
      explicitReady tls12Explicit) := by
  rw [Mirror.readStep]
  rcases readRecord_spec src with
    ⟨r, rest, src', hsplit, hread, hrest⟩ | ⟨-, e, raw, src', hread, hbytes⟩
  · obtain ⟨hbytes, hlen⟩ := splitRecord_bytes hsplit
    obtain ⟨hcovert, halert⟩ := hplain r (.head hsplit)
    have hfine (fallback : Bool) : Task.Fine ⟨some r, [], fallback⟩ := by
      intro r' hr'
      obtain rfl := Option.some.inj hr'
      exact ⟨hlen, halert⟩
    have hnext (fallback : Bool) :
        out ++ ((queue ++ [(⟨some r, [], fallback⟩ : Task)]).flatMap Task.bytes ++
          LawfulReader.bytes src') = input := by
      rw [← hin, hbytes, hrest]
      simp [Task.bytes]
    rw [hread]
    simp only [hcovert, Bool.false_eq_true, if_false]
    split_ifs
    · exact .handedOver (hnext true) hq (hfine true) rfl
    · exact .handedOver (hnext true) hq (hfine true) rfl
    · refine .mirror (hnext false) ?_ ?_
      · intro t ht
        rcases mem_append.mp ht with ht | ht
        · exact hq t ht
        · rw [mem_singleton.mp ht]
          exact ⟨hfine false, rfl⟩
      · rw [hrest]
        exact hplain.tail hsplit
  · rw [hread]
    refine .handedOver ?_ hq (fun r hr => by cases hr) rfl
    rw [← hin, hbytes]
    simp [Task.bytes]

/-- **Step lemma**, the writer. -/
lemma conserved_write (hm : Conserved h input m) : Conserved h input (m.step h .write) := by
  cases hm with
  | capture hin hmore hfirst hgood => exact .capture hin hmore hfirst hgood
  | copy hin => exact .copy hin
  | done => exact .done
  | cancelled hpre => exact .cancelled hpre
  | @mirror ccsWasLast src queue out hin hq hplain =>
    cases queue with
    | nil => exact .mirror hin hq hplain
    | cons t q =>
      have ht := writeTask_eq (hq t mem_cons_self).1
      simp only [Mirror.step, Mirror.writeStep, ht]
      refine .mirror ?_ (fun t' ht' => hq t' (mem_cons_of_mem _ ht')) hplain
      rw [← hin]
      simp
  | @handedOver src queue last out hin hq hlast hfall =>
    cases queue with
    | nil =>
      have ht := writeTask_eq hlast
      simp only [Mirror.step, Mirror.writeStep, nil_append, ht, hfall]
      refine .copy ?_
      rw [← hin]
      simp
    | cons t q =>
      obtain ⟨hfine, hno⟩ := hq t mem_cons_self
      have ht := writeTask_eq hfine
      simp only [Mirror.step, Mirror.writeStep, cons_append, ht, hno]
      refine .handedOver ?_ (fun t' ht' => hq t' (mem_cons_of_mem _ ht')) hlast hfall
      rw [← hin]
      simp

/-- **Step lemma**, the copy of the rest. -/
lemma conserved_copyStep (hin : out ++ LawfulReader.bytes src = input) :
    Conserved h input (Mirror.copyStep ⟨.copy src, queue, out⟩ src) := by
  rw [Mirror.copyStep]
  rcases LawfulReader.read_cases src (show 0 < 32 * 1024 by decide) with
    ⟨hnil, hread⟩ | ⟨d, src', hread, -, -, hbytes, -⟩
  · rw [hread]
    rw [hnil, append_nil] at hin
    dsimp only
    rw [hin]
    exact .done
  · rw [hread]
    refine .copy ?_
    rw [append_assoc, ← hbytes, hin]

lemma Conserved.out_prefix (hm : Conserved h input m) : m.out <+: input := by
  cases hm with
  | capture hin _ _ _ => exact ⟨_, hin⟩
  | mirror hin _ _ => exact ⟨_, hin⟩
  | handedOver hin _ _ _ => exact ⟨_, hin⟩
  | copy hin => exact ⟨_, hin⟩
  | done => exact prefix_rfl
  | cancelled hpre => exact hpre

/-- **Step lemma**: every move keeps the balance. -/
lemma conserved_step (hplain : (peekFirst input).isBad = false → Plain h input)
    (hm : Conserved h input m) (mv : Move) : Conserved h input (m.step h mv) := by
  cases mv with
  | write => exact conserved_write hm
  | cancel =>
    have hpre := hm.out_prefix
    cases hm with
    | done => exact .done
    | capture _ _ _ _ => exact .cancelled hpre
    | mirror _ _ _ => exact .cancelled hpre
    | handedOver _ _ _ _ => exact .cancelled hpre
    | copy _ => exact .cancelled hpre
    | cancelled _ => exact .cancelled hpre
  | read explicitReady tls12Explicit =>
    cases hm with
    | capture hin hmore hfirst hgood => exact conserved_captureStep hplain hin hmore hfirst hgood
    | mirror hin hq hp => exact conserved_readStep hin hq hp explicitReady tls12Explicit
    | handedOver hin hq hlast hfall => exact .handedOver hin hq hlast hfall
    | copy hin => exact conserved_copyStep hin
    | done => exact .done
    | cancelled hpre => exact .cancelled hpre

/-- **Run lemma**: the balance holds along every run. -/
lemma conserved_run (hplain : (peekFirst input).isBad = false → Plain h input)
    (moves : List Move) (hm : Conserved h input m) : Conserved h input (m.run h moves) := by
  induction moves generalizing m with
  | nil => exact hm
  | cons mv moves ih => exact ih (conserved_step hplain hm mv)

/-! ### The end of a direction -/

/-- Some moves bring the direction to its end, with the given bytes written. -/
def Ends (h : Hooks) (m : Mirror σ) (out : Str) : Prop :=
  ∃ more, (m.run h more).phase = .done ∧ (m.run h more).out = out

lemma Ends.of_step (mv : Move) (hm : Ends h (m.step h mv) out) :
    Ends h m out := by
  obtain ⟨more, hdone, hout⟩ := hm
  exact ⟨mv :: more, hdone, hout⟩

lemma Ends.of_done : Ends h (⟨.done, queue, out⟩ : Mirror σ) out := ⟨[], rfl, rfl⟩

lemma ends_copy (src : Buffered σ) (queue : List Task) (out : Str) :
    Ends h ⟨.copy src, queue, out⟩ (out ++ LawfulReader.bytes src) := by
  induction hn : (LawfulReader.bytes src).length using Nat.strong_induction_on
    generalizing src out with
  | _ n ih =>
    refine Ends.of_step (.read true true) ?_
    simp only [Mirror.step, Mirror.copyStep]
    rcases LawfulReader.read_cases src (show 0 < 32 * 1024 by decide) with
      ⟨hnil, hread⟩ | ⟨d, src', hread, hd, -, hbytes, -⟩
    · rw [hread, hnil, append_nil]
      exact .of_done
    · have hpos : 0 < d.length := length_pos_iff.mpr hd
      rw [hbytes, length_append] at hn
      rw [hread, hbytes, ← append_assoc]
      exact ih _ (by omega) src' (out ++ d) rfl

/-- What the worker has handed over is written, and the rest is copied. -/
lemma ends_handedOver {last : Task} (hlast : last.Fine)
    (hfall : last.fallback = true) (queue : List Task)
    (hq : ∀ t ∈ queue, t.Fine ∧ t.fallback = false) (out : Str) :
    ∃ out', Ends h ⟨.handedOver src, queue ++ [last], out⟩ out' := by
  induction queue generalizing out with
  | nil =>
    refine ⟨out ++ last.bytes ++ LawfulReader.bytes src, Ends.of_step .write ?_⟩
    simp only [Mirror.step, Mirror.writeStep, nil_append, writeTask_eq hlast, hfall]
    exact ends_copy src [] (out ++ last.bytes)
  | cons t q ih =>
    obtain ⟨hfine, hno⟩ := hq t mem_cons_self
    obtain ⟨out', hend⟩ := ih (fun t' ht' => hq t' (mem_cons_of_mem _ ht')) (out ++ t.bytes)
    refine ⟨out', Ends.of_step .write ?_⟩
    simp only [Mirror.step, Mirror.writeStep, cons_append, writeTask_eq hfine, hno]
    exact hend

/-- A round of the worker takes bytes from its stream, or hands the rest over. -/
lemma readStep_phase (h : Hooks) (m : Mirror σ) (ccsWasLast : Bool) (src : Buffered σ) :
    (∃ src', (m.readStep h ccsWasLast src true true).phase = .handedOver src') ∨
      ∃ ccs src', (m.readStep h ccsWasLast src true true).phase = .mirror ccs src' ∧
        (LawfulReader.bytes src').length < (LawfulReader.bytes src).length := by
  rw [Mirror.readStep]
  rcases readRecord_spec src with
    ⟨r, rest, src', hsplit, hread, hrest⟩ | ⟨-, e, raw, src', hread, -⟩
  · have hless : (LawfulReader.bytes src').length < (LawfulReader.bytes src).length := by
      rw [(splitRecord_bytes hsplit).1, hrest, Record.bytes]
      simp only [length_append, length_cons]
      omega
    rw [hread]
    dsimp only
    split_ifs
    · exact .inl ⟨src', rfl⟩
    · exact .inl ⟨src', rfl⟩
    · exact .inr ⟨_, src', rfl, hless⟩
    · exact .inr ⟨_, src', rfl, hless⟩
  · rw [hread]
    exact .inl ⟨src', rfl⟩

lemma ends_of_handedOver (hm : Conserved h input m)
    (hphase : m.phase = .handedOver src) : ∃ out, Ends h m out := by
  cases hm with
  | handedOver _ hq hlast hfall => exact ends_handedOver hlast hfall _ hq _
  | capture _ _ _ _ => cases hphase
  | mirror _ _ _ => cases hphase
  | copy _ => cases hphase
  | done => cases hphase
  | cancelled _ => cases hphase

lemma ends_of_mirror (hplain : (peekFirst input).isBad = false → Plain h input)
    (hm : Conserved h input m) {ccsWasLast : Bool}
    (hphase : m.phase = .mirror ccsWasLast src) : ∃ out, Ends h m out := by
  induction hn : (LawfulReader.bytes src).length using Nat.strong_induction_on
    generalizing m ccsWasLast src with
  | _ n ih =>
    have hstep := conserved_step hplain hm (.read true true)
    have hread : m.step h (.read true true) = m.readStep h ccsWasLast src true true := by
      rw [Mirror.step, hphase]
    rcases readStep_phase h m ccsWasLast src with ⟨src', hover⟩ | ⟨ccs, src', hmirror, hless⟩
    · rw [← hread] at hover
      obtain ⟨out, hend⟩ := ends_of_handedOver hstep hover
      exact ⟨out, hend.of_step⟩
    · rw [← hread] at hmirror
      obtain ⟨out, hend⟩ := ih _ (hn ▸ hless) hstep hmirror rfl
      exact ⟨out, hend.of_step⟩

/-- A round of the capture takes bytes from the connection, or it is the last one. -/
lemma captureStep_phase (dir : Direction) (m : Mirror σ) (src : σ)
    (hmore : peekFirst copied = .needMore) : (m.captureStep dir copied src).phase = .done ∨
      (∃ copied' src', (m.captureStep dir copied src).phase = .capture copied' src' ∧
        (LawfulReader.bytes src').length < (LawfulReader.bytes src).length) ∨
      (∃ src', (m.captureStep dir copied src).phase = .copy src') ∨
      ∃ ccs src', (m.captureStep dir copied src).phase = .mirror ccs src' := by
  have hsize : 0 < 65536 - copied.length := by
    have hlen := length_of_needMore hmore
    rw [maxTLSRecordPayload] at hlen
    omega
  rw [Mirror.captureStep]
  rcases LawfulReader.read_cases src hsize with ⟨-, hread⟩ | ⟨d, src', hread, hd, -, hbytes, -⟩
  · rw [hread]
    exact .inl rfl
  · have hpos : 0 < d.length := length_pos_iff.mpr hd
    rw [hread]
    dsimp only
    cases peekFirst (copied ++ d) with
    | needMore =>
      refine .inr (.inl ⟨_, src', rfl, ?_⟩)
      rw [hbytes, length_append]
      omega
    | bad e => exact .inr (.inr (.inl ⟨_, rfl⟩))
    | found r n =>
      dsimp only
      split_ifs
      · exact .inr (.inr (.inr ⟨_, _, rfl⟩))
      · exact .inr (.inr (.inl ⟨_, rfl⟩))

lemma ends_of_copy (hphase : m.phase = .copy src) : ∃ out, Ends h m out := by
  obtain ⟨phase, queue, out⟩ := m
  obtain rfl : phase = .copy src := hphase
  exact ⟨_, ends_copy src queue out⟩

lemma ends_of_capture (hplain : (peekFirst input).isBad = false → Plain h input)
    (hm : Conserved h input m) {src : σ}
    (hphase : m.phase = .capture copied src) : ∃ out, Ends h m out := by
  induction hn : (LawfulReader.bytes src).length using Nat.strong_induction_on
    generalizing m copied src with
  | _ n ih =>
    have hmore : peekFirst copied = .needMore := by
      cases hm with
      | capture _ hmore _ _ =>
        obtain ⟨rfl, rfl⟩ := Phase.capture.inj hphase
        exact hmore
      | mirror _ _ _ => cases hphase
      | handedOver _ _ _ _ => cases hphase
      | copy _ => cases hphase
      | done => cases hphase
      | cancelled _ => cases hphase
    have hstep := conserved_step hplain hm (.read true true)
    have hread : m.step h (.read true true) = m.captureStep h.dir copied src := by
      rw [Mirror.step, hphase]
    have hof : (∃ out, Ends h (m.step h (.read true true)) out) → ∃ out, Ends h m out := by
      rintro ⟨out, hend⟩
      exact ⟨out, hend.of_step⟩
    refine hof ?_
    rcases captureStep_phase h.dir m src hmore with
      hdone | ⟨copied', src', hcap, hless⟩ | ⟨src', hcopy⟩ | ⟨ccs, src', hmirror⟩
    · rw [← hread] at hdone
      exact ⟨_, [], hdone, rfl⟩
    · rw [← hread] at hcap
      exact ih _ (hn ▸ hless) hstep hcap rfl
    · rw [← hread] at hcopy
      exact ends_of_copy hcopy
    · rw [← hread] at hmirror
      exact ends_of_mirror hplain hstep hmirror

/-- **A direction that is not cancelled can come to its end.** -/
lemma ends_of_conserved (hplain : (peekFirst input).isBad = false → Plain h input)
    (hm : Conserved h input m) (hne : m.phase ≠ .cancelled) : ∃ out, Ends h m out := by
  cases hphase : m.phase with
  | capture copied src => exact ends_of_capture hplain hm hphase
  | mirror ccsWasLast src => exact ends_of_mirror hplain hm hphase
  | handedOver src => exact ends_of_handedOver hm hphase
  | copy src => exact ends_of_copy hphase
  | done => exact ⟨_, [], hphase, rfl⟩
  | cancelled => exact absurd hphase hne

/-! ### Streams that are not TLS, in pieces -/

/-- Once a part of a bad header has been forwarded, it is written again with the
rest. -/
lemma ends_twice (hbad : (peekFirst input).isBad = true) {src : σ}
    (hin : copied ++ LawfulReader.bytes src = input) (hne : copied ≠ [])
    (hshort : copied.length < 5) :
    ∃ twice, twice ≠ [] ∧ Ends h ⟨.capture copied src, [], copied⟩ (twice ++ input) := by
  induction hn : (LawfulReader.bytes src).length using Nat.strong_induction_on
    generalizing copied src with
  | _ n ih =>
    have hfive := five_le_of_isBad hbad
    rw [← hin, length_append] at hfive
    rcases LawfulReader.read_cases src (show 0 < 65536 - copied.length by omega) with
      ⟨hnil, -⟩ | ⟨d, src', hread, hd, -, hbytes, -⟩
    · rw [hnil, length_nil] at hfive
      omega
    · have hpos : 0 < d.length := length_pos_iff.mpr hd
      have hall : (copied ++ d) ++ LawfulReader.bytes src' = input := by
        rw [append_assoc, ← hbytes, hin]
      by_cases hstill : (copied ++ d).length < 5
      · obtain ⟨twice, htwice, hend⟩ := ih (LawfulReader.bytes src').length
          (by rw [← hn, hbytes, length_append]; omega) hall (by simp [hne]) hstill rfl
        refine ⟨twice, htwice, Ends.of_step (.read true true) ?_⟩
        simp only [Mirror.step, Mirror.captureStep, hread, peekFirst_of_short hstill]
        exact hend
      · have hbuf : (peekFirst (copied ++ d)).isBad = true := by
          rw [← hbad, ← hall, isBad_append (Nat.not_lt.mp hstill)]
        refine ⟨copied, hne, Ends.of_step (.read true true) ?_⟩
        simp only [Mirror.step, Mirror.captureStep, hread]
        cases hpeek : peekFirst (copied ++ d) with
        | needMore => rw [hpeek] at hbuf; cases hbuf
        | found r k => rw [hpeek] at hbuf; cases hbuf
        | bad e =>
          have hend : Ends h ⟨.copy ⟨[], src'⟩, [], copied ++ (copied ++ d)⟩ _ :=
            ends_copy ⟨[], src'⟩ [] _
          have hbuffered : LawfulReader.bytes (⟨[], src'⟩ : Buffered σ) =
            LawfulReader.bytes src' := rfl
          rw [hbuffered, append_assoc, hall] at hend
          exact hend

lemma not_transparent {src : σ} (hsrc : ¬ FirstReadOK src) : ¬ Transparent h src := by
  rw [FirstReadOK, not_or] at hsrc
  obtain ⟨hbad, hread⟩ := hsrc
  rw [Bool.not_eq_false] at hbad
  push Not at hread
  obtain ⟨d, src', hread, hshort⟩ := hread
  rcases LawfulReader.read_cases src (show 0 < 65536 by decide) with
    ⟨-, hread'⟩ | ⟨d', s', hread', hd, -, hbytes, -⟩
  · rw [hread] at hread'
    cases hread'
  · rw [hread] at hread'
    obtain ⟨hdd, rfl⟩ := Prod.mk.inj hread'
    obtain rfl := Except.ok.inj hdd
    obtain ⟨twice, htwice, hend⟩ := ends_twice (h := h) hbad hbytes.symm hd hshort
    have hstart : Ends h (Mirror.start src) (twice ++ LawfulReader.bytes src) := by
      refine Ends.of_step (.read true true) ?_
      simp only [Mirror.step, Mirror.start, Mirror.captureStep, length_nil, Nat.sub_zero,
        hread, nil_append, peekFirst_of_short hshort]
      exact hend
    obtain ⟨moves, hdone, hout⟩ := hstart
    intro htrans
    have heq := (htrans moves).2.1 hdone
    rw [hout] at heq
    exact htwice (append_left_eq_self.mp heq)

/-- **The mirror is transparent**, in each direction and for every stream that has no
covert record and no alert record among its records, exactly when the stream starts
with a handshake record, or its first read brings at least five bytes. -/
theorem mirror_transparent_iff (h : Hooks) (src : σ)
    (hplain : (peekFirst (LawfulReader.bytes src)).isBad = false →
      Plain h (LawfulReader.bytes src)) :
    Transparent h src ↔ FirstReadOK src := by
  constructor
  · intro htrans
    by_contra hsrc
    exact not_transparent hsrc htrans
  · intro hsrc moves
    have hstart : Conserved h (LawfulReader.bytes src) (Mirror.start src) :=
      .capture (nil_append _) rfl (fun _ => hsrc) fun hne => absurd rfl hne
    have hrun := conserved_run hplain moves hstart
    refine ⟨hrun.out_prefix, fun hdone => ?_, fun hne => ?_⟩
    · generalize (Mirror.start src).run h moves = m at hrun hdone
      cases hrun with
      | done => rfl
      | capture _ _ _ _ => cases hdone
      | mirror _ _ _ => cases hdone
      | handedOver _ _ _ _ => cases hdone
      | copy _ => cases hdone
      | cancelled _ => cases hdone
    · obtain ⟨out, more, hend, -⟩ := ends_of_conserved hplain hrun hne
      exact ⟨more, hend⟩

def clientSide : Hooks := ⟨.c2s, fun _ => false⟩

/-- A handshake record of one byte that comes in three reads. -/
def helloInPieces : Stream := { segments := [[22], [3, 1, 0], [1, 7]] }

lemma plain_helloInPieces : Plain clientSide (LawfulReader.bytes helloInPieces) := by
  have hbytes : LawfulReader.bytes helloInPieces = [22, 3, 1, 0, 1, 7] := rfl
  have hsplit : splitRecord [22, 3, 1, 0, 1, 7] = some (⟨22, (3, 1), [7], false⟩, []) := by
    decide +kernel
  rw [hbytes]
  intro r hr
  refine ⟨rfl, ?_⟩
  cases hr with
  | head hsplit' =>
    rw [hsplit] at hsplit'
    obtain ⟨rfl, -⟩ := Prod.mk.inj (Option.some.inj hsplit')
    decide
  | tail hsplit' htail =>
    rw [hsplit] at hsplit'
    obtain ⟨-, rfl⟩ := Prod.mk.inj (Option.some.inj hsplit')
    cases htail with
    | head hnil => cases hnil
    | tail hnil _ => cases hnil

theorem mirror_transparent_helloInPieces :
    Plain clientSide (LawfulReader.bytes helloInPieces) ∧ Transparent clientSide helloInPieces :=
  ⟨plain_helloInPieces,
    (mirror_transparent_iff clientSide helloInPieces fun _ => plain_helloInPieces).mpr (.inl rfl)⟩

/-- A stream that is not TLS, whose first byte comes alone: the other side has it
twice. -/
theorem mirror_writes_twice :
    ¬ Transparent clientSide ({ segments := [[0x47], [0x45, 0x54, 0x20, 0x2F]] } : Stream) := by
  refine not_transparent ?_
  rintro (hgood | hfive)
  · cases hgood
  · have hread : Reader.read ({ segments := [[0x47], [0x45, 0x54, 0x20, 0x2F]] } : Stream) 65536 =
        (.ok [0x47], { segments := [[0x45, 0x54, 0x20, 0x2F]] }) := by
      simp [Reader.read, Stream.read, readLayers, readSegments]
    exact absurd (hfive _ _ hread) (by decide)

end

end Ntr.Transport.TlsMirror
