/-
The gRPC transport over whole connections: no call fails to return, and what
was written is read.

* `Conn.Clean`, `Conn.reads_return`: without an overlong message every `Read`
  returns, whatever the lengths of its buffers;
* `Conn.Owes`, `received_reads`: on the messages of writes the reads give the
  concatenation of the writes;
* `upholds_iff`: the transport is safe, and its reads give what was written,
  exactly on the streams without an overlong message.
-/
import Ntr.Transport.Grpc

namespace Ntr.Transport.Grpc

open Go Lib Lib.FailState List

/-! ### Reads -/

namespace Conn

variable {c : Conn} {s : Stream} {n : Nat}

lemma fill_of_readBuf (h : c.readBuf ≠ []) (k : Nat) : fill (k + 1) c = (.ok (), c) := by
  rw [fill, if_neg fun h0 => h (length_eq_zero_iff.mp h0)]

lemma fill_of_error {e : Fault} (hr : c.r = some s) (hbuf : c.readBuf = [])
    (h : outcome Grpc.readHunk s = .error e) (k : Nat) :
    fill (k + 1) c = (.error e, { c with r := some (after Grpc.readHunk s) }) := by
  rw [fill, if_pos (length_eq_zero_iff.mpr hbuf), Conn.readHunk, hr]
  simp only [h]

lemma fill_of_ok {data : Str} (hr : c.r = some s) (hbuf : c.readBuf = [])
    (h : outcome Grpc.readHunk s = .ok data) (k : Nat) :
    fill (k + 1) c = fill k { c with r := some (after Grpc.readHunk s), readBuf := data } := by
  rw [fill, if_pos (length_eq_zero_iff.mpr hbuf), Conn.readHunk, hr]
  simp only [h]

/-- `Read` with a reader: the loop, and then a part of what it has found. -/
lemma read_of_reader (hr : c.r = some s) : c.read n = match fill c.rounds c with
      | (.error e, c) => (.error e, c)
      | (.ok (), c) => (.ok (c.readBuf.take n), { c with readBuf := c.readBuf.drop n }) := by
  have hres : c.resolveReader = (.ok (), c) := by
    rw [resolveReader, hr]
  rw [read, hres]
  dsimp only
  rcases fill c.rounds c with ⟨_ | ⟨⟩, c'⟩
  · rfl
  · dsimp only
    rw [slice_drop (min_le_right n _)]
    simp only [← take_eq_take_min, ← drop_eq_drop_min]

/-- `Read` of a client without a reader: it takes one, or fails. -/
lemma read_of_none (hr : c.r = none) : c.read n = match c.resolve 0 with
      | .error e => (.error (.error e), { c with resolve := fun i => c.resolve (i + 1) })
      | .ok body => read { c with
          r := some (after (ε := Error) newReader body)
          resolve := fun i => c.resolve (i + 1) } n := by
  rw [read, resolveReader, hr]
  cases c.resolve 0 <;> rfl

/-- No overlong message is to come. -/
def Clean (c : Conn) : Prop :=
  match c.r with
  | some s => ¬ Overflows s.bytes
  | none => ∀ i body, c.resolve i = .ok body → ¬ Overflows body.bytes

lemma clean_of_reader (hr : c.r = some s) (h : ¬ Overflows s.bytes) : c.Clean := by
  rw [Clean, hr]
  exact h

/-- The loop comes to an end: each message takes some of the bytes to come. -/
lemma fill_returns : ∀ {k : Nat} {c : Conn} {s : Stream}, c.r = some s → ¬ Overflows s.bytes →
    s.bytes.length + 1 < k → Returns (fill k c).1 ∧ (fill k c).2.Clean
  | k + 1, c, s, hr, h, hk => by
    by_cases hbuf : c.readBuf = []
    · obtain ⟨hret, hclean⟩ := readHunk_returns h
      cases hout : outcome Grpc.readHunk s with
      | error e =>
        rw [fill_of_error hr hbuf hout]
        rw [hout] at hret
        exact ⟨hret.pass, clean_of_reader rfl hclean⟩
      | ok data =>
        rw [fill_of_ok hr hbuf hout]
        obtain ⟨flag, msg, hb, -, -⟩ := carries_of_readHunk hout
        have hlen := congrArg List.length hb
        rw [length_append, frame, length_cons] at hlen
        exact fill_returns rfl hclean (by omega)
    · rw [fill_of_readBuf hbuf]
      exact ⟨returns_ok (), clean_of_reader hr h⟩

lemma read_returns_of_reader (hr : c.r = some s) (h : ¬ Overflows s.bytes) (n : Nat) :
    Returns (c.read n).1 ∧ (c.read n).2.Clean := by
  have hk : s.bytes.length + 1 < c.rounds := by
    rw [rounds, hr, Option.elim_some]
    omega
  obtain ⟨hret, hclean⟩ := fill_returns hr h hk
  rw [read_of_reader hr]
  rcases hfill : fill c.rounds c with ⟨e | ⟨⟩, c'⟩
  · rw [hfill] at hret hclean
    exact ⟨hret.pass, hclean⟩
  · rw [hfill] at hclean
    exact ⟨returns_ok _, hclean⟩

/-- **Step lemma of the reads**: a `Read` returns, and the next one will. -/
lemma read_returns (h : c.Clean) (n : Nat) : Returns (c.read n).1 ∧ (c.read n).2.Clean := by
  cases hr : c.r with
  | some s =>
    rw [Clean, hr] at h
    exact read_returns_of_reader hr h n
  | none =>
    rw [Clean, hr] at h
    rw [read_of_none hr]
    cases hbody : c.resolve 0 with
    | error e =>
      refine ⟨returns_error e, ?_⟩
      rw [Clean, hr]
      exact fun i => h (i + 1)
    | ok body =>
      have hopen : ¬ Overflows (after (ε := Error) newReader body).bytes := h 0 body hbody
      exact read_returns_of_reader rfl hopen n

/-- **Run lemma of the reads**: all of them return. -/
lemma reads_return (h : c.Clean) : ∀ ns : List Nat, ∀ x ∈ c.reads ns, Returns x := by
  intro ns
  induction ns generalizing c with
  | nil => exact fun x hx => nomatch hx
  | cons n ns ih =>
    intro x hx
    rcases mem_cons.mp hx with rfl | hx
    · exact (read_returns h n).1
    · exact ih (read_returns h n).2 x hx

end Conn

/-! ### What was written is read -/

/-- The bytes of one `Write`. -/
def hunk (data : Str) : Str := frame 0 (0x0A :: (putUvarint data.length ++ data))

variable {data : Str}

lemma length_le_of_fits (h : Fits data) :
    (0x0A :: (putUvarint data.length ++ data) : Str).length ≤ maxMsgLen := by
  rw [length_cons, length_append]
  rw [Fits] at h
  omega

lemma field_hunk (h : Fits data) : Field (0x0A :: (putUvarint data.length ++ data)) data := by
  refine ⟨putUvarint data.length, [], by rw [append_nil], encodes_putUvarint ?_⟩
  rw [Fits, maxMsgLen] at h
  omega

lemma readHunk_hunk {s : Stream} {rest : Str} (hb : s.bytes = hunk data ++ rest) (h : Fits data) :
    outcome readHunk s = .ok data ∧ (after readHunk s).tape = { s.tape with bytes := rest } := by
  have hfit := length_le_of_fits h
  have hrun := simulates_readHunk.runs (runs_readHunk_frame (t := s.tape) hb hfit)
  rwa [unhunk_field (lt_of_fits hfit) (field_hunk h)] at hrun

lemma readHunk_end {s : Stream} (hb : s.bytes = []) :
    outcome readHunk s = .error (.error s.readErr) ∧
      (after readHunk s).tape = { s.tape with bytes := [] } := by
  have hlen : s.tape.bytes.length < 5 := by
    rw [show s.tape.bytes = [] from hb]
    decide
  have hrun := simulates_readHunk.runs (runs_readHunk_short hlen)
  rwa [show s.tape.bytes = [] from hb] at hrun

lemma runs_write {w : Stream} (hw : w.writeErr 0 = none) (p : Str) : Runs (write p) w (.ok p.length)
    { w with writeErr := fun n => w.writeErr (n + 1), sent := w.sent ++ [hunk p] } := by
  have hbytes : [0] ++ putBE 4 ((0x0A :: putUvarint p.length : Str).length + p.length) ++
      0x0A :: putUvarint p.length ++ p = hunk p := by
    simp [hunk, frame, Nat.add_right_comm]
  have h := Stream.runs_write (b := hunk p) hw
  rw [← hbytes] at h
  rw [← hbytes]
  exact h.bind runs_pure

lemma sent_writes : ∀ (ps : List Str) {w : Stream}, (∀ i, w.writeErr i = none) →
    (after (writes ps) w).sent = w.sent ++ ps.map hunk
  | [], w, _ => by simp [writes]
  | p :: ps, w, hw => by
    have h := runs_write (hw 0) p
    have ih := sent_writes ps (w := after (write p) w) (by rw [h.2]; exact fun i => hw (i + 1))
    rw [writes, after_bind, h.1, map_cons, ← singleton_append, ← append_assoc]
    dsimp only
    rw [ih, h.2]

namespace Conn

variable {c : Conn} {s : Stream} {e : Error} {ps : List Str}

/-- The stream that the connection reads from, once it has its reader. -/
def source (c : Conn) : Option Stream :=
  match c.r with
  | some s => some s
  | none => (c.resolve 0).toOption

/-- The stream brings the messages of these writes, and then the error. -/
def Brings (s : Stream) (e : Error) (ps : List Str) : Prop :=
  s.readErr = e ∧ s.bytes = (ps.map hunk).flatten ∧ ∀ p ∈ ps, Fits p

/-- The connection has the bytes `p` still to give, and then the error. -/
def Owes (c : Conn) (e : Error) (p : Str) : Prop :=
  ∃ s ps, c.source = some s ∧ Brings s e ps ∧ c.readBuf ++ ps.flatten = p

variable {p : Str}

lemma owes_of_reader (hr : c.r = some s) (hs : Brings s e ps)
    (hp : c.readBuf ++ ps.flatten = p) : c.Owes e p :=
  ⟨s, ps, by rw [source, hr], hs, hp⟩

/-- The loop on written messages: it finds data, unless there is none left. -/
lemma fill_brings : ∀ {ps : List Str} {k : Nat} {c : Conn} {s : Stream}, c.r = some s →
    Brings s e ps → s.bytes.length + 1 < k →
    (c.readBuf ++ ps.flatten = [] ∧ (fill k c).1 = .error (.error e) ∧ (fill k c).2.Owes e []) ∨
      ∃ s' ps', (fill k c).1 = .ok () ∧ (fill k c).2.r = some s' ∧ Brings s' e ps' ∧
        (fill k c).2.readBuf ≠ [] ∧
        (fill k c).2.readBuf ++ ps'.flatten = c.readBuf ++ ps.flatten := by
  intro ps
  induction ps with
  | nil =>
    intro k c s hr hs hk
    obtain ⟨k, rfl⟩ := Nat.exists_eq_add_of_lt hk
    by_cases hbuf : c.readBuf = []
    · obtain ⟨hout, haft⟩ := readHunk_end hs.2.1
      rw [hs.1] at hout
      rw [fill_of_error hr hbuf hout, hbuf]
      have hs' : Brings (after Grpc.readHunk s) e [] :=
        ⟨(congrArg Tape.readErr haft).trans hs.1, congrArg Tape.bytes haft, nofun⟩
      exact .inl ⟨rfl, rfl, owes_of_reader rfl hs' (by simp)⟩
    · rw [fill_of_readBuf hbuf]
      exact .inr ⟨s, [], rfl, hr, hs, hbuf, rfl⟩
  | cons p ps ih =>
    intro k c s hr hs hk
    obtain ⟨k, rfl⟩ := Nat.exists_eq_add_of_lt hk
    by_cases hbuf : c.readBuf = []
    · obtain ⟨herr, hb, hfits⟩ := hs
      rw [map_cons, flatten_cons] at hb
      obtain ⟨hout, haft⟩ := readHunk_hunk hb (hfits p (by simp))
      have hbytes : (after Grpc.readHunk s).bytes = (ps.map hunk).flatten :=
        congrArg Tape.bytes haft
      have hs' : Brings (after Grpc.readHunk s) e ps :=
        ⟨(congrArg Tape.readErr haft).trans herr, hbytes,
          fun q hq => hfits q (mem_cons_of_mem p hq)⟩
      have hlen := congrArg List.length hb
      rw [length_append, hunk, frame, length_cons, ← hbytes] at hlen
      rw [fill_of_ok hr hbuf hout, hbuf]
      exact ih (c := { c with r := some (after Grpc.readHunk s), readBuf := p }) rfl hs' (by omega)
    · rw [fill_of_readBuf hbuf]
      exact .inr ⟨s, p :: ps, rfl, hr, hs, hbuf, rfl⟩

lemma read_owes_of_reader (hr : c.r = some s) (hs : Brings s e ps)
    (hp : c.readBuf ++ ps.flatten = p) (n : Nat) :
    (p = [] ∧ (c.read n).1 = .error (.error e) ∧ (c.read n).2.Owes e []) ∨
      ∃ d p', (c.read n).1 = .ok d ∧ p = d ++ p' ∧ (0 < n → d ≠ []) ∧ (c.read n).2.Owes e p' := by
  have hk : s.bytes.length + 1 < c.rounds := by
    rw [rounds, hr, Option.elim_some]
    omega
  rw [read_of_reader hr]
  have hfill := fill_brings hr hs hk
  rw [hp] at hfill
  generalize fill c.rounds c = x at hfill ⊢
  obtain ⟨x, c'⟩ := x
  rcases hfill with ⟨hnil, rfl, howes⟩ | ⟨s', ps', rfl, hr', hs', hbuf, hp'⟩
  · exact .inl ⟨hnil, rfl, howes⟩
  · refine .inr ⟨c'.readBuf.take n, c'.readBuf.drop n ++ ps'.flatten, rfl, ?_, ?_,
      owes_of_reader hr' hs' rfl⟩
    · rw [← append_assoc, take_append_drop]
      exact hp'.symm
    · intro hn hnil
      exact (take_eq_nil_iff.mp hnil).elim (Nat.ne_of_gt hn) hbuf

/-- **Step lemma of the pipe**: a `Read` gives some of what is owed, or the
error when nothing is. -/
lemma read_owes (h : c.Owes e p) (n : Nat) :
    (p = [] ∧ (c.read n).1 = .error (.error e) ∧ (c.read n).2.Owes e []) ∨
      ∃ d p', (c.read n).1 = .ok d ∧ p = d ++ p' ∧ (0 < n → d ≠ []) ∧ (c.read n).2.Owes e p' := by
  obtain ⟨s, ps, hsrc, hs, hp⟩ := h
  cases hr : c.r with
  | some s₀ =>
    rw [source, hr] at hsrc
    cases hsrc
    exact read_owes_of_reader hr hs hp n
  | none =>
    rw [source, hr] at hsrc
    rw [read_of_none hr]
    cases hbody : c.resolve 0 with
    | error e => simp [hbody, Except.toOption] at hsrc
    | ok body =>
      simp only [hbody, Except.toOption, Option.some.injEq] at hsrc
      subst hsrc
      have hs' : Brings (after (ε := Error) newReader body) e ps := hs
      exact read_owes_of_reader (c := { c with
        r := some (after (ε := Error) newReader body)
        resolve := fun i => c.resolve (i + 1) }) rfl hs' hp n

end Conn

def received (xs : List (Except Fault Str)) : Str :=
  xs.flatMap fun x => match x with
    | .ok d => d
    | .error _ => []

/-- **Run lemma of the pipe**: the reads give what is owed from its front on,
they fail only when it is all there, and as many reads of at least a byte as
there are bytes give all of it. -/
lemma received_reads {e : Error} : ∀ (ns : List Nat) {c : Conn} {p : Str}, c.Owes e p →
    received (c.reads ns) <+: p ∧
      (∀ f, .error f ∈ c.reads ns → f = .error e ∧ received (c.reads ns) = p) ∧
      (p.length ≤ (ns.filter (0 < ·)).length → received (c.reads ns) = p) := by
  intro ns
  induction ns with
  | nil =>
    intro c p _
    refine ⟨List.nil_prefix, nofun, fun hlen => ?_⟩
    exact (length_eq_zero_iff.mp (Nat.le_zero.mp hlen)).symm
  | cons n ns ih =>
    intro c p h
    rw [Conn.reads]
    rcases c.read_owes h n with ⟨rfl, hout, howes⟩ | ⟨d, p', hout, rfl, hd, howes⟩
    · obtain ⟨hpre, herr, -⟩ := ih howes
      have hnil : received ((c.read n).2.reads ns) = [] := prefix_nil.mp hpre
      rw [hout]
      refine ⟨?_, ?_, fun _ => hnil⟩
      · exact prefix_nil.mpr hnil
      · intro f hf
        rcases mem_cons.mp hf with hf | hf
        · cases hf
          exact ⟨rfl, hnil⟩
        · exact ⟨(herr f hf).1, hnil⟩
    · obtain ⟨hpre, herr, hall⟩ := ih howes
      have hcons : received (.ok d :: (c.read n).2.reads ns) =
          d ++ received ((c.read n).2.reads ns) := rfl
      rw [hout, hcons]
      refine ⟨(prefix_append_right_inj d).mpr hpre, ?_, ?_⟩
      · intro f hf
        rcases mem_cons.mp hf with hf | hf
        · cases hf
        · rw [(herr f hf).2]
          exact ⟨(herr f hf).1, rfl⟩
      · intro hlen
        rw [hall ?_]
        rw [length_append] at hlen
        by_cases hn : 0 < n
        · have hpos := length_pos_iff.mpr (hd hn)
          rw [filter_cons_of_pos (by simpa using hn), length_cons] at hlen
          omega
        · rw [filter_cons_of_neg (by simpa using hn)] at hlen
          omega

/-! ### Safety -/

/-- Nothing has been read on the connection: it has the stream, or takes it when
a response comes. -/
def Conn.Receives (c : Conn) (s : Stream) : Prop :=
  c.readBuf = [] ∧ (c.r = some s ∨ c.r = none ∧ ∀ i body, c.resolve i = .ok body → body = s)

/-- What is asked of the transport on a received stream: every call returns;
data is the field of one message; and where the stream is what a peer's writes
have sent, the reads give their concatenation. -/
structure Upholds (s : Stream) : Prop where
  readHunk_returns : ∀ k, Returns (outcome readHunk (reader k s))
  read_returns : ∀ c : Conn, c.Receives s → ∀ ns, ∀ x ∈ c.reads ns, Returns x
  payload : ∀ k data, outcome readHunk (reader k s) = .ok data →
    ∃ flag msg, (reader k s).bytes = frame flag msg ++ (reader (k + 1) s).bytes ∧ Carries msg data
  concatenation : ∀ (ps : List Str) (w : Stream), (∀ p ∈ ps, Fits p) → (∀ i, w.writeErr i = none) →
    w.sent = [] → s.bytes = (after (writes ps) w).sent.flatten →
    ∀ c : Conn, c.Receives s → c.source = some s → ∀ ns,
      received (c.reads ns) <+: ps.flatten ∧
        (∀ f, .error f ∈ c.reads ns →
          f = .error s.readErr ∧ received (c.reads ns) = ps.flatten) ∧
        (ps.flatten.length ≤ (ns.filter (0 < ·)).length → received (c.reads ns) = ps.flatten)

lemma Conn.Receives.clean {c : Conn} {s : Stream} (h : c.Receives s) (hs : ¬ Overflows s.bytes) :
    c.Clean := by
  rcases h.2 with hr | ⟨hr, hbody⟩
  · exact clean_of_reader hr hs
  · rw [Clean, hr]
    intro i body hi
    rwa [hbody i body hi]

lemma upholds_of_not_overflows {s : Stream} (h : ¬ Overflows s.bytes) : Upholds s := by
  refine ⟨reader_returns h, fun c hc => Conn.reads_return (hc.clean h), ?_, ?_⟩
  · intro k data hdata
    obtain ⟨flag, msg, hb, -, hcarries⟩ := carries_of_readHunk hdata
    exact ⟨flag, msg, by rwa [reader_succ], hcarries⟩
  · intro ps w hfits hw hsent hb c hc hsrc ns
    rw [sent_writes ps hw, hsent, nil_append] at hb
    refine received_reads ns ⟨s, ps, hsrc, ⟨rfl, hb, hfits⟩, ?_⟩
    rw [hc.1, nil_append]

lemma reader_hunks {ps : List Str} : ∀ {s : Stream}, (∀ p ∈ ps, Fits p) →
    s.bytes = (ps.map hunk).flatten → ∀ k, outcome readHunk (reader k s) ≠ .error .panic := by
  induction ps with
  | nil =>
    intro s _ hb k
    have hclean : ¬ Overflows s.bytes := by
      rw [hb]
      exact not_overflows_nil
    exact (reader_returns hclean k).1
  | cons p ps ih =>
    intro s hfits hb k
    rw [map_cons, flatten_cons] at hb
    obtain ⟨hout, haft⟩ := readHunk_hunk hb (hfits p (by simp))
    cases k with
    | zero =>
      rw [show reader 0 s = s from rfl, hout]
      nofun
    | succ k =>
      exact ih (s := after readHunk s) (fun q hq => hfits q (mem_cons_of_mem p hq))
        (congrArg Tape.bytes haft) k

/-- **Between two ends of the transport** all is well: what `Write` sends has no
overlong message. -/
theorem upholds_of_writes {s w : Stream} {ps : List Str} (hfits : ∀ p ∈ ps, Fits p)
    (hw : ∀ i, w.writeErr i = none) (hsent : w.sent = [])
    (hb : s.bytes = (after (writes ps) w).sent.flatten) : Upholds s := by
  rw [sent_writes ps hw, hsent, nil_append] at hb
  refine upholds_of_not_overflows fun hover => ?_
  obtain ⟨k, hk⟩ := exists_panic hover rfl
  exact reader_hunks hfits hb k hk

theorem upholds_of_writes_two : Upholds
    { segments := [(after (writes [[7], [8, 9]]) ({ segments := [] } : Stream)).sent.flatten] } :=
  upholds_of_writes (by unfold Fits; decide +kernel) (fun _ => rfl) rfl (append_nil _)

/-- **The gRPC transport against any peer**: on a received stream every call of
`readHunk` and `Read` returns, its data is the field of a message and what was
written is read, if and only if no message of the stream claims a field whose
end is beyond the largest `int`. -/
theorem upholds_iff (s : Stream) : Upholds s ↔ ¬ Overflows s.bytes := by
  refine ⟨fun h hover => ?_, upholds_of_not_overflows⟩
  obtain ⟨k, hk⟩ := exists_panic hover rfl
  exact (h.readHunk_returns k).1 hk

/-- Eleven bytes of message with a field of `2 ^ 64 - 1` bytes: the bound check
sees a small sum, and the slice is out of range. -/
theorem hunk_length_wraps :
    outcome readHunk { segments := [[0, 0, 0, 0, 11, 0x0A,
      0xFF, 0xFF, 0xFF, 0xFF, 0xFF, 0xFF, 0xFF, 0xFF, 0xFF, 0x01]] : Stream } = .error .panic ∧
    ¬ Upholds { segments := [[0, 0, 0, 0, 11, 0x0A,
      0xFF, 0xFF, 0xFF, 0xFF, 0xFF, 0xFF, 0xFF, 0xFF, 0xFF, 0x01]] } := by
  have hpanic : outcome readHunk { segments := [[0, 0, 0, 0, 11, 0x0A,
      0xFF, 0xFF, 0xFF, 0xFF, 0xFF, 0xFF, 0xFF, 0xFF, 0xFF, 0x01]] : Stream } =
      .error .panic := by decide +kernel
  exact ⟨hpanic, fun h => (h.readHunk_returns 0).1 hpanic⟩

end Ntr.Transport.Grpc
