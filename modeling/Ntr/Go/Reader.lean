/-
`io.Reader` and `io.ReadFull`, over any stream.

* `LawfulReader`: a stream that gives its bytes in order, at least one at a time,
  and then an error. A connection in segments (`Stream`) is one, and so are the
  bytes alone (`Source`);
* `simulates_readFull`: what `io.ReadFull` does on a lawful reader is what it does
  on the bytes alone.
-/
import Ntr.Go.Io

namespace Ntr.Go

open Lib Lib.FailState List

/-- `io.Reader`. -/
class Reader (σ : Type) where
  /-- `Read` into a buffer of the given length. -/
  read : σ → Nat → Except Error Str × σ

namespace Reader

variable {σ : Type} [Reader σ]

/-- The loop of `io.ReadFull`: `missing` bytes are to come behind `got`. It gives the
bytes that it got, and the error if they are not all. A `Read` gives at least one
byte, so `missing` rounds are enough. -/
def readLoop : Nat → Nat → Str → σ → (Str × Option Error) × σ
  | _, 0, got, s => ((got, none), s)
  | 0, _ + 1, got, s => ((got, some .noProgress), s)
  | rounds + 1, missing + 1, got, s =>
    match read s (missing + 1) with
    | (.error e, s) => ((got, some (shortRead got e)), s)
    | (.ok d, s) => readLoop rounds (missing + 1 - d.length) (got ++ d) s

/-- `io.ReadFull`, with the bytes that it got also where it fails. -/
def readPart (n : Nat) (s : σ) : (Str × Option Error) × σ := readLoop n n [] s

def whole : (Str × Option Error) × σ → Except Error Str × σ
  | ((got, none), s) => (.ok got, s)
  | ((_, some e), s) => (.error e, s)

omit [Reader σ] in
lemma whole_snd : ∀ x : (Str × Option Error) × σ, (whole x).2 = x.2
  | ((_, none), _) => rfl
  | ((_, some _), _) => rfl

def readFull (n : Nat) : FailState Error σ Str := ExceptT.mk fun s => whole (readPart n s)

/-- Reads of the given sizes, until one of them fails: the bytes, and whether the
stream came to its end. -/
def drain (s : σ) : List Nat → Str × Bool
  | [] => ([], false)
  | n :: ns =>
    match read s n with
    | (.error _, _) => ([], true)
    | (.ok d, s) => (d ++ (drain s ns).1, (drain s ns).2)

/-- The error that the reads of the given sizes come to. -/
def drainErr (s : σ) : List Nat → Option Error
  | [] => none
  | n :: ns =>
    match read s n with
    | (.error e, _) => some e
    | (.ok _, s) => drainErr s ns

end Reader

/-- A stream that gives its bytes in order, at least one at a time, and then an
error. -/
class LawfulReader (σ : Type) extends Reader σ where
  bytes : σ → Str
  readErr : σ → Error
  read_cases : ∀ (s : σ) {n : Nat}, 0 < n →
    (bytes s = [] ∧ read s n = (.error (readErr s), s)) ∨
      ∃ d s', read s n = (.ok d, s') ∧ d ≠ [] ∧ d.length ≤ n ∧ bytes s = d ++ bytes s' ∧
        readErr s' = readErr s

/-- Reads into an empty buffer do nothing, as long as there are bytes to come. -/
def LawfulReader.EmptyReads (σ : Type) [LawfulReader σ] : Prop :=
  ∀ s : σ, LawfulReader.bytes s ≠ [] → Reader.read s 0 = (.ok [], s)

/-! ### The bytes alone -/

structure Source where
  bytes : Str
  err : Error := .eof
  deriving DecidableEq

instance instLawfulReaderSource : LawfulReader Source where
  read s n := if s.bytes = [] then (.error s.err, s)
    else (.ok (s.bytes.take n), { s with bytes := s.bytes.drop n })
  bytes := Source.bytes
  readErr := Source.err
  read_cases s n hn := by
    by_cases h : s.bytes = []
    · exact .inl ⟨h, if_pos h⟩
    · refine .inr ⟨_, _, if_neg h, ?_, length_take_le _ _, (take_append_drop n _).symm, rfl⟩
      rw [Ne, take_eq_nil_iff]
      exact fun hnil => hnil.elim (Nat.ne_of_gt hn) h

instance instLawfulReaderStream : LawfulReader Stream where
  read := Stream.read
  bytes := Stream.bytes
  readErr := Stream.readErr
  read_cases s n hn := by
    rcases s.read_cases hn with h | ⟨d, s', hread, hd, hlen, htape⟩
    · exact .inl h
    · exact .inr ⟨d, s', hread, hd, hlen, congrArg Tape.bytes htape,
        (congrArg Tape.readErr htape).symm⟩

namespace Reader

variable {σ : Type} [LawfulReader σ]

def source (s : σ) : Source := ⟨LawfulReader.bytes s, LawfulReader.readErr s⟩

@[simp] lemma source_source (s : Source) : source s = s := rfl

lemma readLoop_eq : ∀ (rounds missing : Nat) (got : Str) (s : σ), missing ≤ rounds →
    (readLoop rounds missing got s).1 = (got ++ (source s).bytes.take missing,
          if missing ≤ (source s).bytes.length then none
          else some (shortRead (got ++ (source s).bytes) (source s).err)) ∧
      source (readLoop rounds missing got s).2 =
        { source s with bytes := (source s).bytes.drop missing }
  | _, 0, got, s, _ => by simp [readLoop]
  | rounds + 1, missing + 1, got, s, h => by
    rw [readLoop]
    rcases LawfulReader.read_cases s (Nat.succ_pos missing) with
      ⟨hnil, hread⟩ | ⟨d, s', hread, hd, hlen, hbytes, herr⟩
    · rw [hread]
      simp [source, hnil]
    · rw [hread]
      have hpos : 0 < d.length := length_pos_iff.mpr hd
      have hsrc : source s = ⟨d ++ (source s').bytes, (source s').err⟩ := by
        rw [source, source, hbytes, herr]
      obtain ⟨hout, hafter⟩ := readLoop_eq rounds (missing + 1 - d.length) (got ++ d) s' (by omega)
      have htake : (d ++ (source s').bytes).take (missing + 1) =
          d ++ (source s').bytes.take (missing + 1 - d.length) := by
        rw [take_append, take_of_length_le hlen]
      have hdrop : (d ++ (source s').bytes).drop (missing + 1) =
          (source s').bytes.drop (missing + 1 - d.length) := by
        rw [drop_append, drop_of_length_le hlen, nil_append]
      have hle : missing + 1 ≤ (d ++ (source s').bytes).length ↔
          missing + 1 - d.length ≤ (source s').bytes.length := by
        rw [length_append]
        omega
      dsimp only
      rw [hout, hafter, hsrc]
      refine ⟨?_, ?_⟩
      · rw [htake, if_congr hle rfl rfl, append_assoc, append_assoc]
      · rw [hdrop]

lemma readPart_eq (n : Nat) (s : σ) : (readPart n s).1 = ((source s).bytes.take n,
        if n ≤ (source s).bytes.length then none
        else some (shortRead (source s).bytes (source s).err)) ∧
    source (readPart n s).2 = { source s with bytes := (source s).bytes.drop n } := by
  rw [readPart]
  exact readLoop_eq n n [] s le_rfl

lemma readFull_eq (n : Nat) (s : σ) : outcome (readFull n) s =
      (if n ≤ (source s).bytes.length then .ok ((source s).bytes.take n)
        else .error (shortRead (source s).bytes (source s).err)) ∧
    source (after (readFull n) s) = { source s with bytes := (source s).bytes.drop n } := by
  obtain ⟨hout, hafter⟩ := readPart_eq n s
  change (whole (readPart n s)).1 = _ ∧ source (whole (readPart n s)).2 = _
  rcases hr : readPart n s with ⟨⟨got, e⟩, s'⟩
  rw [hr] at hout hafter
  obtain ⟨rfl, rfl⟩ := Prod.mk.inj hout
  by_cases hn : n ≤ (source s).bytes.length
  · rw [if_pos hn, if_pos hn]
    exact ⟨rfl, hafter⟩
  · rw [if_neg hn, if_neg hn]
    exact ⟨rfl, hafter⟩

lemma simulates_readFull (n : Nat) :
    Simulates source (readFull n : FailState Error σ Str) (readFull n) := by
  intro s
  obtain ⟨hout, hafter⟩ := readFull_eq n s
  obtain ⟨hout', hafter'⟩ := readFull_eq n (source s)
  rw [source_source] at hout' hafter'
  exact ⟨hout.trans hout'.symm, hafter.trans hafter'.symm⟩

variable {n : Nat} {s : Source} {a rest : Str} {e : Error} {τ : Type}

lemma succeeds_readFull {P : Str → Source → Prop} : Succeeds (readFull n) s P ↔
    ∃ a rest, s.bytes = a ++ rest ∧ a.length = n ∧ P a { s with bytes := rest } := by
  obtain ⟨hout, hafter⟩ := readFull_eq n s
  rw [source_source] at hout hafter
  rw [source_source] at hafter
  rw [Succeeds, hout, hafter]
  constructor
  · rintro ⟨a, ha, hP⟩
    split_ifs at ha with hn
    · obtain rfl := Except.ok.inj ha
      exact ⟨_, _, (take_append_drop n s.bytes).symm, length_take_of_le hn, hP⟩
  · rintro ⟨a, rest, hbs, rfl, hP⟩
    refine ⟨a, ?_, ?_⟩
    · simp [hbs]
    · simpa [hbs] using hP

lemma runs_readFull (h : s.bytes = a ++ rest) :
    Runs (readFull a.length) s (.ok a) { s with bytes := rest } := by
  obtain ⟨hout, hafter⟩ := readFull_eq a.length s
  rw [source_source] at hout hafter
  rw [source_source] at hafter
  rw [Runs, hout, hafter]
  simp [h]

lemma exists_runs_readFull {s : σ} (h : source s = ⟨a ++ rest, e⟩) :
    ∃ s', Runs (readFull a.length) s (.ok a) s' ∧ source s' = ⟨rest, e⟩ := by
  have hbytes : (source s).bytes = a ++ rest := by rw [h]
  obtain ⟨hout, hafter⟩ := (simulates_readFull a.length).runs (runs_readFull hbytes)
  exact ⟨_, ⟨hout, rfl⟩, by rw [hafter, h]⟩

lemma exists_readPart {s : σ} (h : source s = ⟨a ++ rest, e⟩) :
    ∃ s', readPart a.length s = ((a, none), s') ∧ source s' = ⟨rest, e⟩ := by
  obtain ⟨hout, hafter⟩ := readPart_eq a.length s
  rw [h, take_left, if_pos (by rw [length_append]; omega)] at hout
  rw [h, drop_left] at hafter
  exact ⟨_, Prod.ext hout rfl, hafter⟩

lemma runs_readFull_end {s : σ} (h : source s = ⟨[], e⟩) (hn : 0 < n) :
    ∃ s', Runs (readFull n) s (.error e) s' := by
  obtain ⟨hout, -⟩ := readFull_eq n s
  have hlong : ¬ n ≤ ([] : Str).length := Nat.not_le.mpr hn
  rw [h, if_neg hlong] at hout
  exact ⟨_, hout, rfl⟩

/-- Reads of any sizes give `c`: in order, all of it by the time that they end, and
they end when there are more reads than bytes. -/
def Gives (reads : List Nat → Str × Bool) (c : Str) : Prop :=
  ∀ ns : List Nat, (∀ n ∈ ns, 0 < n) →
    (reads ns).1 <+: c ∧ ((reads ns).2 = true → (reads ns).1 = c) ∧
      (c.length < ns.length → (reads ns).2 = true)

lemma Gives.unique {reads : List Nat → Str × Bool} {c c' : Str} (h : Gives reads c)
    (h' : Gives reads c') : c = c' := by
  -- as many reads as both need
  have hpos : ∀ n ∈ List.replicate (c.length + c'.length + 1) 1, 0 < n := fun n hn => by
    rw [eq_of_mem_replicate hn]
    exact Nat.one_pos
  obtain ⟨-, hall, hend⟩ := h _ hpos
  obtain ⟨-, hall', -⟩ := h' _ hpos
  have hended := hend (by rw [length_replicate]; omega)
  rw [← hall hended, hall' hended]

/-- **Reads of a stream**, of sizes that are allowed, under an invariant that says what
is to come: each with room for a byte gives one as long as there are any, and then an
error. -/
lemma drain_of_reads [Reader τ] {P : Nat → Prop} {H : τ → Str → Prop}
    (hread : ∀ {s : τ} {b : Str} {n : Nat}, H s b → P n →
      (b = [] ∧ ∃ e s', read s n = (.error e, s')) ∨
        ∃ d s' b', read s n = (.ok d, s') ∧ (0 < n → d ≠ []) ∧ b = d ++ b' ∧ H s' b')
    {s : τ} {b : Str} (h : H s b) {ns : List Nat} (hns : ∀ n ∈ ns, P n) :
    (drain s ns).1 <+: b ∧ ((drain s ns).2 = true → (drain s ns).1 = b) ∧
      (b.length < ns.countP (0 < ·) → (drain s ns).2 = true) := by
  induction ns generalizing s b with
  | nil => exact ⟨List.nil_prefix, fun h => (by cases h), fun h => absurd h (Nat.not_lt_zero _)⟩
  | cons n ns ih =>
    rw [drain]
    rcases hread h (hns n mem_cons_self) with
      ⟨rfl, e, s', hread⟩ | ⟨d, s', b', hread, hd, rfl, h'⟩
    · rw [hread]
      exact ⟨List.nil_prefix, fun _ => rfl, fun _ => rfl⟩
    · rw [hread]
      obtain ⟨hpre, hall, hend⟩ := ih h' fun m hm => hns m (mem_cons_of_mem _ hm)
      dsimp only
      refine ⟨(prefix_append_right_inj d).mpr hpre, fun h => by rw [hall h], fun h => hend ?_⟩
      rw [length_append, countP_cons] at h
      by_cases hn : 0 < n
      · have hpos : 0 < d.length := length_pos_iff.mpr (hd hn)
        rw [if_pos (decide_eq_true hn)] at h
        omega
      · rw [if_neg (mt of_decide_eq_true hn)] at h
        omega

lemma gives_of_reads [Reader τ] {H : τ → Str → Prop}
    (hread : ∀ {s : τ} {b : Str} {n : Nat}, H s b → 0 < n →
      (b = [] ∧ ∃ e s', read s n = (.error e, s')) ∨
        ∃ d s' b', read s n = (.ok d, s') ∧ d ≠ [] ∧ b = d ++ b' ∧ H s' b')
    {s : τ} {b : Str} (h : H s b) : Gives (drain s) b := by
  intro ns hns
  have hcount : ns.countP (0 < ·) = ns.length :=
    countP_eq_length.mpr fun n hn => decide_eq_true (hns n hn)
  rw [← hcount]
  refine drain_of_reads (P := (0 < ·)) (fun h hn => ?_) h hns
  rcases hread h hn with hend | ⟨d, s', b', hread, hd, hb, h'⟩
  · exact .inl hend
  · exact .inr ⟨d, s', b', hread, fun _ => hd, hb, h'⟩

lemma drainErr_of_reads [Reader τ] {H : τ → Prop} (hread : ∀ {s : τ} {n : Nat}, H s → 0 < n →
      (∃ s', read s n = (.error e, s')) ∨ ∃ d s', read s n = (.ok d, s') ∧ H s')
    {s : τ} (h : H s) {ns : List Nat} (hns : ∀ n ∈ ns, 0 < n) (hend : (drain s ns).2 = true) :
    drainErr s ns = some e := by
  induction ns generalizing s with
  | nil => cases hend
  | cons n ns ih =>
    rw [drain] at hend
    rw [drainErr]
    rcases hread h (hns n mem_cons_self) with ⟨s', hread⟩ | ⟨d, s', hread, h'⟩
    · rw [hread]
    · rw [hread] at hend ⊢
      exact ih h' (fun m hm => hns m (mem_cons_of_mem _ hm)) hend

lemma gives_drain (s : σ) : Gives (drain s) (LawfulReader.bytes s) := by
  have hread : ∀ {s : σ} {b : Str} {n : Nat}, LawfulReader.bytes s = b → 0 < n →
      (b = [] ∧ ∃ e s', read s n = (.error e, s')) ∨
        ∃ d s' b', read s n = (.ok d, s') ∧ d ≠ [] ∧ b = d ++ b' ∧ LawfulReader.bytes s' = b' := by
    rintro s b n rfl hn
    rcases LawfulReader.read_cases s hn with ⟨hnil, hread⟩ | ⟨d, s', hread, hd, -, hbytes, -⟩
    · exact .inl ⟨hnil, _, _, hread⟩
    · exact .inr ⟨d, s', _, hread, hd, hbytes, rfl⟩
  exact gives_of_reads hread rfl

/-! ### A header in front -/

/-- Fewer bytes are to come, or as many. -/
def Shrinks (s s' : Source) : Prop := s'.bytes.length ≤ s.bytes.length

instance instReflShrinks : Std.Refl Shrinks := ⟨fun _ => Nat.le_refl _⟩

instance instIsTransShrinks : IsTrans Source Shrinks := ⟨fun _ _ _ h h' => Nat.le_trans h' h⟩

lemma after_readFull (n : Nat) (s : Source) :
    after (readFull n) s = { s with bytes := s.bytes.drop n } := by
  obtain ⟨-, hafter⟩ := readFull_eq n s
  rw [source_source, source_source] at hafter
  exact hafter

lemma keeps_readFull (n : Nat) : Keeps Shrinks (readFull n) := by
  intro s
  rw [after_readFull, Shrinks, length_drop]
  exact Nat.sub_le _ _

/-- What is to come once the header has been read by `m`: nothing where that
fails. -/
def stripped {α : Type} (m : FailState Error Source α) (s : Source) : Str :=
  match outcome m s with
  | .ok _ => (after m s).bytes
  | .error _ => []

lemma stripped_of_runs {α : Type} {m : FailState Error Source α} {s' : Source} {a : α}
    (h : Runs m s (.ok a) s') : stripped m s = s'.bytes := by
  rw [stripped, h.1, h.2]

lemma stripped_eq_self_iff {α : Type} {k : Str → FailState Error Source α}
    (hk : ∀ a, Keeps Shrinks (k a)) :
    stripped (readFull (n + 1) >>= k) s = s.bytes ↔ s.bytes = [] := by
  constructor
  · intro h
    by_contra hne
    have hpos : 0 < s.bytes.length := length_pos_iff.mpr hne
    rw [stripped, outcome_bind] at h
    cases hout : outcome (readFull (n + 1)) s with
    | error e =>
      rw [hout] at h
      exact hne h.symm
    | ok a =>
      rw [hout] at h
      have hshrink := hk a (after (readFull (n + 1)) s)
      rw [after_readFull, Shrinks, length_drop] at hshrink
      have hafter : after (readFull (n + 1) >>= k) s =
          after (k a) { s with bytes := s.bytes.drop (n + 1) } := by
        rw [after_bind, hout, after_readFull]
      split at h
      · have hlen := congrArg List.length h
        rw [hafter] at hlen
        omega
      · exact hne h.symm
  · intro hnil
    rw [stripped]
    split
    · have hshrink := (Keeps.bind (keeps_readFull (n + 1)) hk) s
      rw [Shrinks, hnil] at hshrink
      rw [hnil]
      exact eq_nil_of_length_eq_zero (Nat.le_zero.mp hshrink)
    · exact hnil.symm

/-! ### Bytes behind what is read -/

def more (s : Source) (p : Str) : Source := { s with bytes := s.bytes ++ p }

/-- Where the code succeeds, bytes behind those that it reads do not matter, and
they are left. -/
def Framed {α : Type} (m : FailState Error Source α) : Prop :=
  ∀ s p a, outcome m s = .ok a → Runs m (more s p) (.ok a) (more (after m s) p)

section
variable {α β : Type}

lemma Framed.pure (a : α) : Framed (pure a) := fun _ _ _ h => ⟨h, rfl⟩

lemma Framed.throw (e : Error) : Framed (throw e : FailState Error Source α) :=
  fun _ _ _ h => (by cases h)

lemma Framed.ite {p : Prop} [Decidable p] {m m' : FailState Error Source α} (h : Framed m)
    (h' : Framed m') : Framed (if p then m else m') := by
  split <;> assumption

lemma Framed.bind {m : FailState Error Source α} {k : α → FailState Error Source β}
    (hm : Framed m) (hk : ∀ a, Framed (k a)) : Framed (m >>= k) := by
  intro s p b h
  rw [outcome_bind] at h
  cases hout : outcome m s with
  | error e => rw [hout] at h; cases h
  | ok a =>
    rw [hout] at h
    have hrun := (hm s p a hout).bind (hk a _ p b h)
    rwa [after_bind, hout]

lemma framed_readFull (n : Nat) : Framed (readFull n) := by
  intro s p a h
  obtain ⟨b, hb, a', rest, hbytes, hlen, rfl⟩ : ∃ b, outcome (readFull n) s = .ok b ∧
      ∃ a' rest, s.bytes = a' ++ rest ∧ a'.length = n ∧ b = a' := by
    have hsucc : Succeeds (readFull n) s fun _ _ => True := ⟨a, h, trivial⟩
    obtain ⟨a', rest, hbytes, hlen, -⟩ := succeeds_readFull.mp hsucc
    have hrun := runs_readFull hbytes
    rw [hlen] at hrun
    exact ⟨a', hrun.1, a', rest, hbytes, hlen, rfl⟩
  obtain rfl : a = b := Except.ok.inj (h.symm.trans hb)
  have hmore : (more s p).bytes = a ++ (rest ++ p) := by
    rw [more, hbytes, append_assoc]
  have hrun := runs_readFull hmore
  rw [hlen] at hrun
  have hafter : after (readFull n) s = { s with bytes := rest } := by
    rw [after_readFull, hbytes, ← hlen, drop_left]
  rw [hafter]
  exact hrun

end

/-! ### Two readers of the same bytes -/

/-- On the same bytes both succeed, with the same value and the same bytes left, or
neither does, however the streams end. -/
def Agrees {α : Type} (m m' : FailState Error Source α) : Prop :=
  ∀ (b : Str) (e e' : Error) (P : α → Str → Prop),
    Succeeds m ⟨b, e⟩ (fun a s => P a s.bytes) ↔ Succeeds m' ⟨b, e'⟩ fun a s => P a s.bytes

section
variable {α β : Type}

lemma Agrees.pure (a : α) : Agrees (pure a) (pure a) := by
  intro b e e' P
  rw [succeeds_pure, succeeds_pure]

lemma Agrees.of_fails {m m' : FailState Error Source α} (h : ∀ s P, ¬ Succeeds m s P)
    (h' : ∀ s P, ¬ Succeeds m' s P) : Agrees m m' :=
  fun _ _ _ _ => iff_of_false (h _ _) (h' _ _)

lemma Agrees.ite {p : Prop} [Decidable p] {m₁ m₂ m₁' m₂' : FailState Error Source α}
    (h₁ : Agrees m₁ m₁') (h₂ : Agrees m₂ m₂') :
    Agrees (if p then m₁ else m₂) (if p then m₁' else m₂') := by
  split <;> assumption

lemma Agrees.bind {m m' : FailState Error Source α} {k k' : α → FailState Error Source β}
    (hm : Agrees m m') (hk : ∀ a, Agrees (k a) (k' a)) : Agrees (m >>= k) (m' >>= k') := by
  intro b e e' P
  rw [succeeds_bind, succeeds_bind]
  have hleft := hm b e e' fun a rest => Succeeds (k a) ⟨rest, e⟩ fun a s => P a s.bytes
  constructor
  · rintro ⟨a, hout, h⟩
    obtain ⟨a', hout', h'⟩ := hleft.mp ⟨a, hout, (hk a _ _ e _).mp h |> (hk a _ e e _).mpr⟩
    exact ⟨a', hout', (hk a' _ _ _ _).mp h'⟩
  · rintro ⟨a, hout, h⟩
    obtain ⟨a', hout', h'⟩ := hleft.mpr ⟨a, hout, (hk a _ _ _ _).mpr h⟩
    exact ⟨a', hout', (hk a' _ e e _).mp h' |> (hk a' _ _ e _).mpr⟩

lemma agrees_readFull (n : Nat) : Agrees (readFull n) (readFull n) := by
  intro b e e' P
  rw [succeeds_readFull, succeeds_readFull]

lemma Agrees.readFull_bind {n : Nat} {k k' : Str → FailState Error Source α}
    (hk : ∀ a, a.length = n → Agrees (k a) (k' a)) :
    Agrees (readFull n >>= k) (readFull n >>= k') := by
  intro b e e' P
  simp only [succeeds_bind, succeeds_readFull]
  constructor
  · rintro ⟨a, rest, hb, hlen, h⟩
    exact ⟨a, rest, hb, hlen, (hk a hlen _ _ _ _).mp h⟩
  · rintro ⟨a, rest, hb, hlen, h⟩
    exact ⟨a, rest, hb, hlen, (hk a hlen _ _ _ _).mpr h⟩

lemma succeeds_readFull_add {n l : Nat} {k : Str → FailState Error Source α} {s : Source}
    {Q : α → Source → Prop} : Succeeds (readFull (n + l) >>= k) s Q ↔
      Succeeds (readFull n >>= fun a => readFull l >>= fun c => k (a ++ c)) s Q := by
  simp only [succeeds_bind, succeeds_readFull]
  constructor
  · rintro ⟨a, rest, hb, hlen, h⟩
    refine ⟨a.take n, a.drop n ++ rest, ?_, ?_, a.drop n, rest, rfl, ?_, ?_⟩
    · rw [hb, ← append_assoc, take_append_drop]
    · rw [length_take, hlen]
      omega
    · rw [length_drop, hlen]
      omega
    · rwa [take_append_drop]
  · rintro ⟨a, -, hb, rfl, c, rest, rfl, rfl, h⟩
    exact ⟨a ++ c, rest, by rw [hb, append_assoc], length_append, h⟩

end

end Reader

end Ntr.Go
