/-
The connections on top of the chunks (`snellv45/conns.go`, `snellv123/conns.go`, which
are the same but for the chunks below them). A chunk without bytes is the end of the
stream; the first byte that a server sends is its status.

* `clientSends`, `serverSends`: `Write`, time after time, and `CloseWrite`;
* `Lockstep.server_reads`, `Lockstep.client_reads`: in lockstep each end reads what the
  other wrote.
-/
import Ntr.Snell.Chunks

namespace Ntr.Snell

open Go List Reader ChunkEncoder
open Lib Lib.FailState

/-! ### Reading -/

section
variable {ρ σ κ : Type} [ChunkDecoder ρ]

/-- The payload of the next chunk, or the end of the stream. -/
def nextChunk [Reader σ] : FailState Error (ρ × σ) Str := do
  let x ← ChunkDecoder.decodeChunk
  lift (x.elim (.error .eof) .ok)

/-- `Read`: of what is left of a payload, or of the next one. A chunk that is not the
end has a byte, so that one is enough. -/
def readVia (next : FailState Error κ Str) (rbuf : Str) (k : κ) (n : Nat) :
    Except Error Str × Str × κ :=
  if rbuf ≠ [] then (.ok (rbuf.take n), rbuf.drop n, k)
  else
    match next.outcome k with
    | .error e => (.error e, [], next.after k)
    | .ok payload => (.ok (payload.take n), payload.drop n, next.after k)

/-- `serverConn`, as it reads. -/
structure ServerConn (ρ σ : Type) where
  rbuf : Str
  below : ρ × σ

instance instReaderServerConn [Reader σ] : Reader (ServerConn ρ σ) where
  read c n :=
    let x := readVia nextChunk c.rbuf c.below n
    (x.1, ⟨x.2.1, x.2.2⟩)

/-- The message of a server that reports an error, `[0x02][code][len][msg]`. -/
def serverError (pkg payload : Str) : Error :=
  .text (pkg ++ lit ": server error: " ++
    if 3 ≤ payload.length ∧ 3 + ((payload.drop 2).headD 0).toNat ≤ payload.length then
      (payload.drop 3).take ((payload.drop 2).headD 0).toNat
    else [])

/-- The payload of the next chunk, where the first one starts with the status. -/
def nextBehindStatus [Reader σ] : FailState Error (Bool × ρ × σ) Str := do
  let payload ← second nextChunk
  let gotStatus ← step fun c => (c.1, true, c.2)
  if gotStatus then pure payload
  else if payload.headD 0 = 2 then throw (serverError (ChunkDecoder.pkg ρ) payload)
  else if payload.tail = [] then second nextChunk
  else pure payload.tail

/-- `clientConn`, as it reads. -/
structure ClientConn (ρ σ : Type) where
  rbuf : Str
  below : Bool × ρ × σ

instance instReaderClientConn [Reader σ] : Reader (ClientConn ρ σ) where
  read c n :=
    let x := readVia nextBehindStatus c.rbuf c.below n
    (x.1, ⟨x.2.1, x.2.2⟩)

/-! ### What is read -/

/-- The payloads that are to come, and the error behind them. -/
inductive Feeds (next : FailState Error κ Str) (e : Error) : κ → List Str → Prop
  | done {k k' : κ} : Runs next k (.error e) k' → Feeds next e k []
  | more {k k' : κ} {x : Str} {xs : List Str} :
      x ≠ [] → Runs next k (.ok x) k' → Feeds next e k' xs → Feeds next e k (x :: xs)

lemma readVia_cases {next : FailState Error κ Str} {e : Error} {k : κ} {xs : List Str}
    (h : Feeds next e k xs) (rbuf : Str) {n : Nat} (hn : 0 < n) :
    (rbuf ++ xs.flatten = [] ∧ ∃ k', readVia next rbuf k n = (.error e, [], k')) ∨
      ∃ d rbuf' k' xs', readVia next rbuf k n = (.ok d, rbuf', k') ∧ d ≠ [] ∧
        rbuf ++ xs.flatten = d ++ (rbuf' ++ xs'.flatten) ∧ Feeds next e k' xs' := by
  have htake : ∀ {b : Str}, b ≠ [] → b.take n ≠ [] := fun hb hnil =>
    (take_eq_nil_iff.mp hnil).elim (Nat.ne_of_gt hn) hb
  by_cases hbuf : rbuf = []
  · cases h with
    | done hrun =>
      refine .inl ⟨by rw [hbuf]; rfl, next.after k, ?_⟩
      rw [readVia, if_neg (not_not.mpr hbuf), hrun.1]
    | @more _ k' x xs hx hrun hxs =>
      refine .inr ⟨x.take n, x.drop n, k', xs, ?_, htake hx, ?_, hxs⟩
      · rw [readVia, if_neg (not_not.mpr hbuf), hrun.1, hrun.2]
      · rw [hbuf, nil_append, flatten_cons, ← append_assoc, take_append_drop]
  · refine .inr ⟨_, _, _, _, by rw [readVia, if_pos hbuf], htake hbuf, ?_, h⟩
    rw [← append_assoc, take_append_drop]

/-- The reads of a connection give the bytes and come to the error. -/
def ReadsTo {τ : Type} [Reader τ] (c : τ) (b : Str) (e : Error) : Prop :=
  Reader.Gives (drain c) b ∧ ∀ ns : List Nat, (∀ n ∈ ns, 0 < n) → (drain c ns).2 = true →
      drainErr c ns = some e

/-- **What a connection reads**: the payloads behind what it has left of one. -/
lemma Feeds.readsTo {τ : Type} [Reader τ] {next : FailState Error κ Str} {m : Str → κ → τ}
    (hm : ∀ b k n, read (m b k) n =
      ((readVia next b k n).1, m (readVia next b k n).2.1 (readVia next b k n).2.2))
    {e : Error} {k : κ} {xs : List Str} (h : Feeds next e k xs) (rbuf : Str) :
    ReadsTo (m rbuf k) (rbuf ++ xs.flatten) e := by
  refine ⟨gives_of_reads (H := fun c b =>
    ∃ rbuf k xs, c = m rbuf k ∧ Feeds next e k xs ∧ b = rbuf ++ xs.flatten) ?_
    ⟨rbuf, k, xs, rfl, h, rfl⟩, fun ns hns hend => drainErr_of_reads (H := fun c =>
    ∃ rbuf k xs, c = m rbuf k ∧ Feeds next e k xs) ?_ ⟨rbuf, k, xs, rfl, h⟩ hns hend⟩
  · rintro c b n ⟨rbuf, k, xs, rfl, hxs, rfl⟩ hn
    rw [hm]
    rcases readVia_cases hxs rbuf hn with ⟨hnil, k', hread⟩ | ⟨d, rbuf', k', xs', hread, hd, hb, h'⟩
    · exact .inl ⟨hnil, e, m [] k', by rw [hread]⟩
    · exact .inr ⟨d, m rbuf' k', _, by rw [hread], hd, hb, rbuf', k', xs', rfl, h', rfl⟩
  · rintro c n ⟨rbuf, k, xs, rfl, hxs⟩ hn
    rw [hm]
    rcases readVia_cases hxs rbuf hn with ⟨-, k', hread⟩ | ⟨d, rbuf', k', xs', hread, -, -, h'⟩
    · exact .inl ⟨m [] k', by rw [hread]⟩
    · exact .inr ⟨d, m rbuf' k', by rw [hread], rbuf', k', xs', rfl, h'⟩

section
variable [LawfulReader σ] {t : σ} {r r' : ρ} {w rest : Str} {e e' : Error}

/-- Chunks that a receiver takes feed a connection, up to what it finds behind
them. -/
lemma TakesAll.feeds {ys : List (Option Str)} (h : TakesAll r w ys r') {xs : List Str}
    (hys : ys = xs.map some) (hxs : ∀ x ∈ xs, x ≠ []) (hend : ∀ {t' : σ}, source t' = ⟨rest, e⟩ →
      ∃ k, Runs nextChunk (r', t') (.error e') k)
    (ht : source t = ⟨w ++ rest, e⟩) : Feeds nextChunk e' (r, t) xs := by
  induction h generalizing t xs with
  | nil =>
    cases xs with
    | nil =>
      obtain ⟨k, hrun⟩ := hend ht
      exact .done hrun
    | cons x xs => cases hys
  | cons hx _ ih =>
    cases xs with
    | nil => cases hys
    | cons x xs =>
      obtain ⟨rfl, hys'⟩ := List.cons.inj hys
      rw [append_assoc] at ht
      obtain ⟨t', hrun, ht'⟩ := hx ht
      have hnext : Runs nextChunk _ (.ok x) _ := hrun.bind runs_lift
      exact .more (hxs x mem_cons_self) hnext
        (ih hys' (fun y hy => hxs y (mem_cons_of_mem _ hy)) hend ht')

lemma runs_nextChunk_eof (h : Takes r w none r') (ht : source t = ⟨w ++ rest, e⟩) :
    ∃ k, Runs nextChunk (r, t) (.error .eof) k := by
  obtain ⟨t', hrun, -⟩ := h ht
  exact ⟨_, hrun.bind runs_lift⟩

lemma Feeds.behind_status {k : ρ × σ} {xs : List Str} (h : Feeds nextChunk e k xs) :
    Feeds nextBehindStatus e (true, k) xs := by
  induction h with
  | done hrun => exact .done (hrun.second true).bind_error
  | more hx hrun _ ih => exact .more hx ((hrun.second true).bind (runs_step.bind runs_pure)) ih

lemma Feeds.status {k : ρ × σ} {x : Str} {xs : List Str}
    (h : Feeds nextChunk e k ((0 :: x) :: xs)) (hx : x ≠ []) :
    Feeds nextBehindStatus e (false, k) (x :: xs) := by
  cases h with
  | more _ hrun hxs =>
    refine .more hx ((hrun.second false).bind (runs_step.bind ?_)) hxs.behind_status
    simp only [Bool.false_eq_true, if_false, headD_cons, tail_cons, hx]
    exact runs_pure

end

end

/-! ### Writing -/

section
variable {S T ρ : Type}

/-- The bytes that calls of `Write` put on the connection, one after the other. -/
def writes (write : T → Str → Except Error Str × T) : T → List Str → Except Error Str × T
  | s, [] => (.ok [], s)
  | s, p :: ps =>
    match write s p with
    | (.error e, s) => (.error e, s)
    | (.ok w, s) => ((writes write s ps).1.map (w ++ ·), (writes write s ps).2)

variable [ChunkEncoder S]

/-- `clientConn.Write`. -/
def clientWrite : S → Str → Except Error Str × S := encodeChunk

/-- `serverConn.Write`, with the status in front of the first payload. -/
def serverWrite (s : S × Bool) (p : Str) : Except Error Str × S × Bool :=
  let x := encodeChunk s.1 (if s.2 then p else 0 :: p)
  (x.1, x.2, true)

/-- `CloseWrite`, or nothing. -/
def closeWrite (s : S) (closed : Bool) : Except Error Str × S :=
  if closed then encodeChunk s [] else (.ok [], s)

/-! ### In step -/

variable [ChunkDecoder ρ]

/-- What a version has to have: from ends that are in step, the chunks of a write are
taken off and the ends are in step again, the empty chunk is seen as such, and nothing
is seen where nothing comes. -/
structure Lockstep (Synced : S → ρ → Prop) : Prop where
  write : ∀ {s r p}, Synced s r → p ≠ [] → ∃ w s' xs r',
    encodeChunk s p = (.ok w, s') ∧ xs.flatten = p ∧ (∀ x ∈ xs, x ≠ []) ∧
      (2 ≤ p.length → ∃ x xs', xs = x :: xs' ∧ 2 ≤ x.length) ∧
      TakesAll r w (xs.map some) r' ∧ Synced s' r'
  close : ∀ {s r}, Synced s r → ∃ w s' r',
    encodeChunk s [] = (.ok w, s') ∧ Takes r w none r' ∧ Synced s' r'
  ended : ∀ {s r}, Synced s r → ∀ {σ : Type} [LawfulReader σ] {t : σ} {e : Error},
    source t = ⟨[], e⟩ → ∃ k, Runs ChunkDecoder.decodeChunk (r, t) (.error e) k

/-- The chunks that a sequence of writes is taken off in. -/
structure Arrives (r : ρ) (w : Str) (b : Str) (r' : ρ) (xs : List Str) : Prop where
  flatten : xs.flatten = b
  ne_nil : ∀ x ∈ xs, x ≠ []
  takes : TakesAll r w (xs.map some) r'

variable {Synced : S → ρ → Prop} {s : S} {r : ρ} {ps : List Str}

lemma Lockstep.client_writes (h : Lockstep Synced) (hs : Synced s r) (hps : ∀ p ∈ ps, p ≠ []) :
    ∃ w s' xs r', writes clientWrite s ps = (.ok w, s') ∧ Arrives r w ps.flatten r' xs ∧
      Synced s' r' := by
  induction ps generalizing s r with
  | nil => exact ⟨[], s, [], r, rfl, ⟨rfl, fun _ h => absurd h not_mem_nil, .nil r⟩, hs⟩
  | cons p ps ih =>
    obtain ⟨w, s₁, xs, r₁, henc, hflat, hne, -, htakes, hs₁⟩ := h.write hs (hps p mem_cons_self)
    obtain ⟨ws, s₂, ys, r₂, hws, harr, hs₂⟩ := ih hs₁ fun q hq => hps q (mem_cons_of_mem _ hq)
    refine ⟨w ++ ws, s₂, xs ++ ys, r₂, ?_, ⟨?_, ?_, ?_⟩, hs₂⟩
    · rw [writes, clientWrite, henc]
      dsimp only
      rw [← clientWrite, hws]
      rfl
    · rw [flatten_append, hflat, harr.flatten, flatten_cons]
    · intro x hx
      exact (mem_append.mp hx).elim (hne x) (harr.ne_nil x)
    · rw [map_append]
      exact htakes.append harr.takes

lemma writes_serverWrite (s : S) (ps : List Str) : writes serverWrite (s, true) ps =
    ((writes clientWrite s ps).1, (writes clientWrite s ps).2, true) := by
  induction ps generalizing s with
  | nil => rfl
  | cons p ps ih =>
    rw [writes, writes, serverWrite, clientWrite]
    simp only [if_true]
    rcases encodeChunk s p with ⟨_ | w, s'⟩
    · rfl
    · dsimp only
      rw [ih]
      rfl

lemma Lockstep.server_writes (h : Lockstep Synced) (hs : Synced s r) (hps : ∀ p ∈ ps, p ≠ [])
    {p : Str} (hp : p ≠ []) :
    ∃ w s' x xs r', writes serverWrite (s, false) (p :: ps) = (.ok w, s', true) ∧ x ≠ [] ∧
      x ++ xs.flatten = (p :: ps).flatten ∧
      Arrives r w (0 :: (p :: ps).flatten) r' ((0 :: x) :: xs) ∧ Synced s' r' := by
  have hlen : 2 ≤ (0 :: p : Str).length := by
    have := length_pos_iff.mpr hp
    rw [length_cons]
    omega
  obtain ⟨w, s₁, xs, r₁, henc, hflat, hne, hfirst, htakes, hs₁⟩ :=
    h.write hs (cons_ne_nil 0 p)
  obtain ⟨ws, s₂, ys, r₂, hws, harr, hs₂⟩ := h.client_writes hs₁ hps
  obtain ⟨y, xs', rfl, hy⟩ := hfirst hlen
  obtain ⟨z, x, rfl⟩ : ∃ z x, y = z :: x := by
    cases y with
    | nil => cases hy
    | cons z x => exact ⟨z, x, rfl⟩
  obtain ⟨rfl, hx⟩ : z = 0 ∧ x ++ xs'.flatten = p := by
    rw [flatten_cons, cons_append] at hflat
    exact List.cons.inj hflat
  have hxne : x ≠ [] := by
    rintro rfl
    exact absurd hy (by decide)
  have hall : x ++ (xs' ++ ys).flatten = (p :: ps).flatten := by
    rw [flatten_append, ← append_assoc, hx, harr.flatten, flatten_cons]
  refine ⟨w ++ ws, s₂, x, xs' ++ ys, r₂, ?_, hxne, hall, ⟨?_, ?_, ?_⟩, hs₂⟩
  · rw [writes, serverWrite]
    simp only [Bool.false_eq_true, if_false, henc, writes_serverWrite, hws]
    rfl
  · rw [flatten_cons, cons_append, hall]
  · intro y hy
    rcases mem_append.mp (cons_append ▸ hy : y ∈ (0 :: x) :: xs' ++ ys) with hy | hy
    · exact hne y hy
    · exact harr.ne_nil y hy
  · rw [← cons_append, map_append]
    exact htakes.append harr.takes

/-- What stands behind the last write: the end of the stream, or nothing yet. -/
lemma Lockstep.closes (h : Lockstep Synced) (hs : Synced s r) (closed : Bool) :
    ∃ c s' ys r', closeWrite s closed = (.ok c, s') ∧ TakesAll r c ys r' ∧ Synced s' r' ∧
      ∀ {σ : Type} [LawfulReader σ] {t : σ} {rest : Str} {e : Error},
        source t = ⟨c ++ (if closed then rest else []), e⟩ →
          ∃ k, Runs nextChunk (r, t) (.error (if closed then .eof else e)) k := by
  cases closed with
  | true =>
    obtain ⟨c, s', r', henc, htakes, hs'⟩ := h.close hs
    exact ⟨c, s', [none], r', henc, htakes.all, hs', fun ht => runs_nextChunk_eof htakes ht⟩
  | false =>
    refine ⟨[], s, [], r, rfl, .nil r, hs, fun ht => ?_⟩
    obtain ⟨k, hrun⟩ := h.ended hs ht
    exact ⟨k, hrun.bind_error⟩

/-! ### Round trips -/

/-- From ends that are in step: the bytes of writes, and of the end of the stream if
there is one, are taken off in chunks that leave the ends in step, and the connection
at the other end reads the bytes written (a server behind those that came with the
command) and then the end, or what the carrier has. -/
def RoundTrips (S ρ : Type) [ChunkEncoder S] [ChunkDecoder ρ] (Synced : S → ρ → Prop) : Prop :=
  ∀ {s : S} {r : ρ}, Synced s r → ∀ {ps : List Str}, (∀ p ∈ ps, p ≠ []) → ∀ closed : Bool,
    (∃ w s₁ c s₂ xs r', writes clientWrite s ps = (.ok w, s₁) ∧
      closeWrite s₁ closed = (.ok c, s₂) ∧ TakesAll r (w ++ c) xs r' ∧ Synced s₂ r' ∧
      ∀ {σ : Type} [LawfulReader σ] {t : σ} {rest : Str} {e : Error},
        source t = ⟨w ++ (c ++ if closed then rest else []), e⟩ → ∀ rbuf : Str,
          ReadsTo (ServerConn.mk rbuf (r, t)) (rbuf ++ ps.flatten) (if closed then .eof else e)) ∧
    ∃ w s₁ sent c s₂ xs r', writes serverWrite (s, false) ps = (.ok w, s₁, sent) ∧
      closeWrite s₁ closed = (.ok c, s₂) ∧ TakesAll r (w ++ c) xs r' ∧ Synced s₂ r' ∧
      ∀ {σ : Type} [LawfulReader σ] {t : σ} {rest : Str} {e : Error},
        source t = ⟨w ++ (c ++ if closed then rest else []), e⟩ →
          ReadsTo (ClientConn.mk [] (false, r, t)) ps.flatten (if closed then .eof else e)

lemma Lockstep.roundTrips (h : Lockstep Synced) : RoundTrips S ρ Synced := by
  intro s r hs ps hps closed
  constructor
  · obtain ⟨w, s₁, xs, r₁, hw, harr, hs₁⟩ := h.client_writes hs hps
    obtain ⟨c, s₂, ys, r₂, hc, hys, hs₂, hend⟩ := h.closes hs₁ closed
    refine ⟨w, s₁, c, s₂, _, r₂, hw, hc, harr.takes.append hys, hs₂,
      fun {σ _ t rest e} ht rbuf => ?_⟩
    have hfeeds := harr.takes.feeds rfl harr.ne_nil (fun ht' => hend ht') ht
    have hreads := hfeeds.readsTo (m := ServerConn.mk) (fun _ _ _ => rfl) rbuf
    rwa [harr.flatten] at hreads
  · cases ps with
    | nil =>
      obtain ⟨c, s₂, ys, r₂, hc, hys, hs₂, hend⟩ := h.closes hs closed
      refine ⟨[], s, false, c, s₂, ys, r₂, rfl, hc, hys, hs₂, fun {σ _ t rest e} ht => ?_⟩
      obtain ⟨k, hrun⟩ := hend ht
      have hfeeds : Feeds nextBehindStatus (if closed then .eof else e) (false, r, t) [] :=
        .done (hrun.second false).bind_error
      exact hfeeds.readsTo (m := ClientConn.mk) (fun _ _ _ => rfl) []
    | cons p ps =>
      obtain ⟨w, s₁, x, xs, r₁, hw, hx, hflat, harr, hs₁⟩ :=
        h.server_writes hs (fun q hq => hps q (mem_cons_of_mem _ hq)) (hps p mem_cons_self)
      obtain ⟨c, s₂, ys, r₂, hc, hys, hs₂, hend⟩ := h.closes hs₁ closed
      refine ⟨w, s₁, true, c, s₂, _, r₂, hw, hc, harr.takes.append hys, hs₂,
        fun {σ _ t rest e} ht => ?_⟩
      have hfeeds := harr.takes.feeds rfl harr.ne_nil (fun ht' => hend ht') ht
      have hreads := (hfeeds.status hx).readsTo (m := ClientConn.mk) (fun _ _ _ => rfl) []
      rwa [nil_append, flatten_cons, hflat] at hreads

end

end Ntr.Snell
