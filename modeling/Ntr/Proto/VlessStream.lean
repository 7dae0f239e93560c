/-
The payload streams of VLESS (`proto/vless/vless.go`, `vision.go`). The first write
goes out together with a header, assembled in a buffer of fixed size; the writes
behind it go straight to the stream below.

* `PrefixStream.write`: the `Write` of `serverStream` and of `lazyClientStream`;
* `streams_transparent_iff`: transparency depends on the first write alone.
-/
import Ntr.Proto.Vless

namespace Ntr.Proto.Vless

open Go Lib Lib.FailState List

/-! ### Writes -/

/-- A call of `Write`: the bytes, and what the stream below does with a write at
this time, which is to take it or to fail. -/
structure Call where
  payload : Str
  below : Option Error := none
  deriving DecidableEq

/-- A stream that puts a header in front of its first write, with the bytes that the
stream below has taken. -/
structure PrefixStream where
  wrote : Bool := false
  sent : Str := []
  deriving DecidableEq

namespace PrefixStream

/-- `b` goes to the stream below. -/
def pass (w : PrefixStream) (b : Str) (c : Call) : Except Error Nat × PrefixStream :=
  match c.below with
  | none => (.ok c.payload.length, { w with sent := w.sent ++ b })
  | some e => (.error e, w)

/-- `Write`, for a header of the given parts. -/
def write (header : List Str) (w : PrefixStream) (c : Call) : Except Error Nat × PrefixStream :=
  if w.wrote then w.pass c.payload c
  else
    match bufWrites [] header with
    | .error e => (.error e, { w with wrote := true })
    | .ok b =>
      match bufWrite b c.payload with
      | .error e => (.error e, { w with wrote := true })
      | .ok b => pass { w with wrote := true } b c

/-- A sequence of writes: their results, and the stream behind them. -/
def writes (header : List Str) (w : PrefixStream) :
    List Call → List (Except Error Nat) × PrefixStream
  | [] => ([], w)
  | c :: cs =>
    ((w.write header c).1 :: (writes header (w.write header c).2 cs).1,
      (writes header (w.write header c).2 cs).2)

end PrefixStream

/-- `serverStream.Write`: in front of the first write stands the response header. -/
def serverHeader : List Str := [[version], [0]]

/-- `lazyClientStream`: a client stream of Vision. -/
structure LazyClient where
  uuid : Str
  dst : Socksaddr
  length_uuid : uuid.length = 16

def LazyClient.header (l : LazyClient) : RequestHeader :=
  ⟨l.uuid, encodeFlowAddon flowVision, cmdTCP, l.dst⟩

/-! ### Reads -/

section
variable {σ : Type} [Reader σ]

/-- What the first `Read` of a client strips: the response header. -/
def stripResp : FailState Error σ Str := do
  let vh ← Reader.readFull 2
  if vh.headD 0 ≠ version then throw errVersion else readAddons ((vh.drop 1).headD 0)

/-- `clientStream`; the reads of `lazyClientStream` are the same. -/
structure ClientStream (σ : Type) where
  below : σ
  strippedResp : Bool := false

def ClientStream.read (c : ClientStream σ) (n : Nat) : Except Error Str × ClientStream σ :=
  if c.strippedResp then ((Reader.read c.below n).1, { c with below := (Reader.read c.below n).2 })
  else
    match stripResp.outcome c.below with
    | .error e => (.error e, ⟨stripResp.after c.below, true⟩)
    | .ok _ =>
      ((Reader.read (stripResp.after c.below) n).1,
        ⟨(Reader.read (stripResp.after c.below) n).2, true⟩)

instance instReaderClientStream : Reader (ClientStream σ) := ⟨ClientStream.read⟩

def clientReads (s : σ) : List Nat → Str × Bool := Reader.drain (ClientStream.mk s false)

/-- The reads of a server behind the request header. -/
def serverReads (s : σ) (ns : List Nat) : Str × Bool :=
  match readRequestHeader.outcome s with
  | .ok _ => Reader.drain (readRequestHeader.after s) ns
  | .error _ => ([], true)

end

/-! ### What the peer has -/

section
variable {σ : Type} [LawfulReader σ]

lemma simulates_readAddons (alen : UInt8) :
    Simulates Reader.source (readAddons alen : FailState Error σ Str) (readAddons alen) := by
  unfold readAddons
  exact .ite (Reader.simulates_readFull _) (.pure _)

lemma simulates_stripResp :
    Simulates Reader.source (stripResp : FailState Error σ Str) stripResp := by
  unfold stripResp
  exact (Reader.simulates_readFull _).bind fun _ => .ite (.throw _) (simulates_readAddons _)

/-- Once the header is stripped, the reads are those of the stream below. -/
lemma drain_clientStream (s : σ) (ns : List Nat) :
    Reader.drain (ClientStream.mk s true) ns = Reader.drain s ns := by
  induction ns generalizing s with
  | nil => rfl
  | cons n ns ih =>
    have hread : Reader.read (ClientStream.mk s true) n =
        ((Reader.read s n).1, ⟨(Reader.read s n).2, true⟩) := rfl
    rw [Reader.drain, Reader.drain, hread]
    rcases Reader.read s n with ⟨d | d, s'⟩
    · rfl
    · dsimp only
      rw [ih]

lemma clientReads_ok {s : σ} {a : Str} (h : stripResp.outcome s = .ok a) (n : Nat)
    (ns : List Nat) : clientReads s (n :: ns) = Reader.drain (stripResp.after s) (n :: ns) := by
  have hread : Reader.read (ClientStream.mk s false) n =
      ((Reader.read (stripResp.after s) n).1, ⟨(Reader.read (stripResp.after s) n).2, true⟩) := by
    change ClientStream.read _ n = _
    rw [ClientStream.read, if_neg Bool.false_ne_true, h]
  rw [clientReads, Reader.drain, Reader.drain, hread]
  rcases Reader.read (stripResp.after s) n with ⟨d | d, s'⟩
  · rfl
  · dsimp only
    rw [drain_clientStream]

lemma clientReads_error {s : σ} {e : Error} (h : stripResp.outcome s = .error e) (n : Nat)
    (ns : List Nat) : clientReads s (n :: ns) = ([], true) := by
  have hread : (Reader.read (ClientStream.mk s false) n).1 = .error e := by
    change (ClientStream.read _ n).1 = _
    rw [ClientStream.read, if_neg Bool.false_ne_true, h]
  rw [clientReads, Reader.drain]
  rcases hr : Reader.read (ClientStream.mk s false) n with ⟨d, s'⟩
  rw [hr] at hread
  simp only at hread
  rw [hread]

/-- **A client has what follows the response header.** -/
lemma gives_clientReads (s : σ) :
    Reader.Gives (clientReads s) (Reader.stripped stripResp (Reader.source s)) := by
  obtain ⟨hout, hafter⟩ := simulates_stripResp s
  have hend : ([] : Str) <+: [] := List.nil_prefix
  rintro (_ | ⟨n, ns⟩) hns
  · exact ⟨List.nil_prefix, fun h => (by cases h), fun h => absurd h (Nat.not_lt_zero _)⟩
  · cases hs : stripResp.outcome s with
    | error e =>
      rw [clientReads_error hs, Reader.stripped, ← hout, hs]
      exact ⟨hend, fun _ => rfl, fun _ => rfl⟩
    | ok a =>
      rw [clientReads_ok hs, Reader.stripped, ← hout, hs, ← hafter]
      exact Reader.gives_drain (stripResp.after s) (n :: ns) hns

/-- **A server has what follows the request header.** -/
lemma gives_serverReads (s : σ) :
    Reader.Gives (serverReads s) (Reader.stripped readRequestHeader (Reader.source s)) := by
  obtain ⟨hout, hafter⟩ := simulates_readRequestHeader s
  intro ns hns
  rw [serverReads, Reader.stripped, ← hout]
  cases hs : readRequestHeader.outcome s with
  | error e => exact ⟨List.nil_prefix, fun _ => rfl, fun _ => rfl⟩
  | ok h =>
    rw [← hafter]
    exact Reader.gives_drain (readRequestHeader.after s) ns hns

end

/-! ### Transparency -/

/-- The bytes of the writes that the stream below takes. -/
def taken (cs : List Call) : Str := (cs.filter (·.below.isNone)).flatMap (·.payload)

/-- Every write that the stream below takes succeeds, and from every connection that
brings what was sent the peer has the bytes of these writes. -/
def Transparent (header : List Str) (peer : Stream → List Nat → Str × Bool) (cs : List Call) :
    Prop :=
  (∀ x ∈ cs.zip (PrefixStream.writes header {} cs).1,
      x.1.below = none → x.2 = .ok x.1.payload.length) ∧
    ∀ s : Stream, s.bytes = (PrefixStream.writes header {} cs).2.sent →
      Reader.Gives (peer s) (taken cs)

/-- What the first write must be like for a header of `n` bytes, of which the peer
takes some for payload (`spilt`) or not: if the stream below takes it, it fits the
buffer; if not, nothing but empty writes follow. -/
def FirstFits (n : Nat) (spilt : Prop) : List Call → Prop
  | [] => True
  | c :: cs =>
    (c.below = none → n + c.payload.length ≤ room ∧ ¬ spilt) ∧
      (c.below ≠ none → ∀ c' ∈ cs, c'.below = none → c'.payload = [])

section
variable {w : PrefixStream} {c : Call} {cs : List Call}

@[simp] lemma taken_nil : taken [] = [] := rfl

lemma taken_cons (c : Call) (cs : List Call) :
    taken (c :: cs) = (if c.below = none then c.payload else []) ++ taken cs := by
  rw [taken, taken]
  cases hb : c.below with
  | none => rw [filter_cons_of_pos (by simp [hb]), flatMap_cons, if_pos rfl]
  | some e =>
    rw [filter_cons_of_neg (by simp [hb]), if_neg (by simp), nil_append]

lemma taken_eq_nil_iff : taken cs = [] ↔ ∀ c ∈ cs, c.below = none → c.payload = [] := by
  simp [taken, flatMap_eq_nil_iff]

namespace PrefixStream

lemma writes_of_wrote (header : List Str) (cs : List Call) (hw : w.wrote = true) :
    (∀ x ∈ cs.zip (w.writes header cs).1, x.1.below = none → x.2 = .ok x.1.payload.length) ∧
      (w.writes header cs).2.sent = w.sent ++ taken cs := by
  induction cs generalizing w with
  | nil => simp [writes]
  | cons c cs ih =>
    have hwrite : w.write header c = w.pass c.payload c := if_pos hw
    rw [writes, hwrite, taken_cons, pass]
    cases hb : c.below with
    | none =>
      obtain ⟨hres, hsent⟩ := ih (w := { w with sent := w.sent ++ c.payload }) hw
      refine ⟨?_, ?_⟩
      · rintro x (_ | ⟨_, hx⟩)
        · exact fun _ => rfl
        · exact hres x hx
      · dsimp only
        rw [hsent, if_pos rfl, append_assoc]
    | some e =>
      obtain ⟨hres, hsent⟩ := ih hw
      refine ⟨?_, ?_⟩
      · rintro x (_ | ⟨_, hx⟩)
        · intro hnone
          rw [hb] at hnone
          cases hnone
        · exact hres x hx
      · dsimp only
        rw [hsent, if_neg (by simp), nil_append]

lemma write_first (header : List Str) (c : Call) : write header {} c =
    if header.flatten.length + c.payload.length ≤ room
    then pass ⟨true, []⟩ (header.flatten ++ c.payload) c
    else (.error errShortBuffer, ⟨true, []⟩) := by
  have hroom : ([] : Str).length ≤ room := Nat.zero_le _
  rw [write, if_neg Bool.false_ne_true, bufWrites_eq _ hroom, length_nil, Nat.zero_add, nil_append]
  by_cases hh : header.flatten.length ≤ room
  · rw [if_pos hh]
    dsimp only
    rw [bufWrite]
    split_ifs with hp <;> rfl
  · rw [if_neg hh, if_neg (by omega)]

end PrefixStream

section
variable {α : Type} {m : FailState Error Source α} {peer : Stream → List Nat → Str × Bool}
  {header : List Str} {spilt b bs : Str}

/-- A connection that brings the given bytes in one segment. -/
def oneSegment (b : Str) : Stream := { segments := [b] }

lemma bytes_oneSegment (b : Str) : (oneSegment b).bytes = b := by
  simp [oneSegment, Stream.bytes]

/-- What the peer has of the bytes that were sent is what it makes of them. -/
lemma forall_gives_iff (hpeer : ∀ s, Reader.Gives (peer s) (Reader.stripped m (Reader.source s))) :
    (∀ s : Stream, s.bytes = b → Reader.Gives (peer s) bs) ↔
      ∀ s : Stream, s.bytes = b → Reader.stripped m (Reader.source s) = bs := by
  constructor
  · intro h s hs
    exact (hpeer s).unique (h s hs)
  · intro h s hs
    rw [← h s hs]
    exact hpeer s

lemma write_first_of_below (header : List Str) {e : Error} (hb : c.below = some e) :
    ∃ e', PrefixStream.write header {} c = (.error e', ⟨true, []⟩) := by
  rw [PrefixStream.write_first]
  split_ifs
  · exact ⟨e, by rw [PrefixStream.pass, hb]⟩
  · exact ⟨_, rfl⟩

/-- **Transparency depends on the first write**, for a peer that strips a header. -/
lemma transparent_iff (hpeer : ∀ s, Reader.Gives (peer s) (Reader.stripped m (Reader.source s)))
    (hstrip : ∀ r e, Reader.stripped m ⟨header.flatten ++ r, e⟩ = spilt ++ r)
    (hself : ∀ s, Reader.stripped m s = s.bytes ↔ s.bytes = []) :
    Transparent header peer cs ↔ FirstFits header.flatten.length (spilt ≠ []) cs := by
  have hsource {s : Stream} {r : Str} (hs : s.bytes = header.flatten ++ r) :
      Reader.stripped m (Reader.source s) = spilt ++ r := by
    rw [← hstrip r s.readErr, ← hs]
    rfl
  rw [Transparent, forall_gives_iff hpeer]
  cases cs with
  | nil =>
    refine ⟨fun _ => trivial, fun _ => ⟨by simp, fun s hs => ?_⟩⟩
    exact ((hself (Reader.source s)).mpr hs).trans hs
  | cons c cs =>
    rw [PrefixStream.writes, FirstFits, taken_cons]
    cases hb : c.below with
    | none =>
      rw [PrefixStream.write_first, if_pos rfl]
      by_cases hfit : header.flatten.length + c.payload.length ≤ room
      · -- the header and the first write are sent in one
        rw [if_pos hfit, PrefixStream.pass, hb]
        obtain ⟨hres, hsent⟩ := PrefixStream.writes_of_wrote header cs
          (w := ⟨true, [] ++ (header.flatten ++ c.payload)⟩) rfl
        dsimp only
        rw [hsent, nil_append, append_assoc]
        constructor
        · rintro ⟨-, hgives⟩
          have hspilt := hgives (oneSegment _) (bytes_oneSegment _)
          rw [hsource (bytes_oneSegment _), append_left_eq_self] at hspilt
          exact ⟨fun _ => ⟨hfit, not_not.mpr hspilt⟩, fun h => absurd rfl h⟩
        · rintro ⟨hcond, -⟩
          have hspilt : spilt = [] := not_not.mp (hcond rfl).2
          refine ⟨?_, fun s hs => ?_⟩
          · rintro x (_ | ⟨_, hx⟩)
            · exact fun _ => rfl
            · exact hres x hx
          · rw [hsource hs, hspilt, nil_append]
      · -- the first write fails, though the stream below would take it
        rw [if_neg hfit]
        constructor
        · rintro ⟨hres, -⟩
          cases hres _ mem_cons_self hb
        · rintro ⟨hcond, -⟩
          exact absurd (hcond rfl).1 hfit
    | some e =>
      -- the header is never sent
      obtain ⟨e', hfirst⟩ := write_first_of_below header hb
      obtain ⟨hres, hsent⟩ := PrefixStream.writes_of_wrote header cs (w := ⟨true, []⟩) rfl
      rw [hfirst]
      dsimp only
      rw [hsent, if_neg (by simp), nil_append]
      constructor
      · rintro ⟨-, hgives⟩
        refine ⟨fun h => (by cases h), fun _ => taken_eq_nil_iff.mp ?_⟩
        have hraw := hgives (oneSegment _) (bytes_oneSegment _)
        have hb' : (Reader.source (oneSegment (taken cs))).bytes = taken cs := bytes_oneSegment _
        rw [← hb']
        exact (hself _).mp (hraw.trans hb'.symm)
      · rintro ⟨-, hempty⟩
        have hnil : taken cs = [] := taken_eq_nil_iff.mpr (hempty (by simp))
        refine ⟨?_, fun s hs => ?_⟩
        · rintro x (_ | ⟨_, hx⟩)
          · intro hnone
            rw [hb] at hnone
            cases hnone
          · exact hres x hx
        · rw [(hself (Reader.source s)).mpr (hs.trans hnil)]
          exact hs

end

/-! ### The two streams -/

lemma stripped_stripResp_self (s : Source) : Reader.stripped stripResp s = s.bytes ↔ s.bytes = [] :=
  Reader.stripped_eq_self_iff fun _ =>
    .ite (.throw _) (keeps_readAddons Reader.keeps_readFull _)

lemma stripped_readRequestHeader_self (s : Source) :
    Reader.stripped readRequestHeader s = s.bytes ↔ s.bytes = [] := by
  refine Reader.stripped_eq_self_iff fun _ => .ite (.throw _) ?_
  refine (keeps_readAddons Reader.keeps_readFull _).bind fun _ => ?_
  refine (Reader.keeps_readFull _).bind fun _ => Keeps.bind (.ite ?_ (.pure _)) fun _ => .pure _
  exact (Reader.keeps_readFull _).bind fun _ =>
    (keeps_readHost _ Reader.keeps_readFull _).bind fun _ => .pure _

lemma stripped_serverHeader (r : Str) (e : Error) :
    Reader.stripped stripResp ⟨serverHeader.flatten ++ r, e⟩ = [] ++ r := by
  have hhead : Runs (Reader.readFull 2) (⟨[version, 0] ++ r, e⟩ : Source) (.ok [version, 0])
      ⟨r, e⟩ := Reader.runs_readFull (a := [version, 0]) rfl
  have hrun : Runs stripResp (⟨[version, 0] ++ r, e⟩ : Source) (.ok []) ⟨r, e⟩ := by
    rw [stripResp]
    refine hhead.bind ?_
    rw [if_neg (fun hne => hne rfl)]
    exact runs_pure
  exact Reader.stripped_of_runs hrun

namespace LazyClient

variable (l : LazyClient)

lemma length_addons : l.header.addons.length = 18 := by
  change (encodeFlowAddon flowVision).length = 18
  decide +kernel

lemma stripped_header (r : Str) (e : Error) :
    Reader.stripped readRequestHeader ⟨(headerParts l.header).flatten ++ r, e⟩ =
      spill l.dst ++ r := by
  have hadd : l.header.addons.length ≤ 255 := by
    rw [length_addons]
    decide
  exact Reader.stripped_of_runs (runs_readRequestHeader l.length_uuid hadd rfl)

lemma length_header :
    (headerParts l.header).flatten.length = 40 + (hostParts l.dst).flatten.length := by
  have haddr : addrBytes l.header = (addrPortParts l.dst).flatten := rfl
  have huuid : l.header.uuid.length = 16 := l.length_uuid
  rw [flatten_headerParts, haddr, flatten_addrPortParts]
  simp only [length_append, length_cons, length_nil, length_putBE, huuid, length_addons]
  omega

end LazyClient

lemma spill_eq_nil_iff (d : Socksaddr) : spill d = [] ↔ d.fqdn.length ≤ 255 := by
  rw [spill, drop_eq_nil_iff]
  omega

lemma server_transparent_iff : Transparent serverHeader clientReads cs ↔ FirstFits 2 False cs := by
  have hspilt : ([] : Str) ≠ [] ↔ False := ⟨fun h => h rfl, False.elim⟩
  rw [transparent_iff gives_clientReads stripped_serverHeader stripped_stripResp_self,
    propext hspilt]
  rfl

lemma lazy_transparent_iff (l : LazyClient) : Transparent (headerParts l.header) serverReads cs ↔
    FirstFits (40 + (hostParts l.dst).flatten.length) (255 < l.dst.fqdn.length) cs := by
  have hspilt : spill l.dst ≠ [] ↔ 255 < l.dst.fqdn.length := by
    rw [Ne, spill_eq_nil_iff, Nat.not_le]
  rw [transparent_iff gives_serverReads l.stripped_header stripped_readRequestHeader_self,
    l.length_header, propext hspilt]

/-- **The payload streams are transparent, if the first write fits the buffer.** For
the client of Vision the domain of the destination must fit, too. -/
theorem streams_transparent_iff (l : LazyClient) (cs : List Call) :
    (Transparent serverHeader clientReads cs ↔ FirstFits 2 False cs) ∧
      (Transparent (headerParts l.header) serverReads cs ↔
        FirstFits (40 + (hostParts l.dst).flatten.length) (255 < l.dst.fqdn.length) cs) :=
  ⟨server_transparent_iff, lazy_transparent_iff l⟩

/-- A client of Vision that asks for `127.0.0.1:80`. -/
def localClient : LazyClient := ⟨List.replicate 16 7, .fromIPPort ⟨.v4 0x7F000001, 80⟩, rfl⟩

/-- A full buffer of the relay, `32` KiB. -/
def relayBuffer : Str := List.replicate (32 * 1024) 0x61

lemma length_relayBuffer : relayBuffer.length = 32 * 1024 := length_replicate

/-- The relay writes up to `32` KiB at a time. As the first write this does not fit the
buffer behind the header, and fails. -/
theorem first_32KiB_fails : ¬ Transparent serverHeader clientReads [⟨relayBuffer, none⟩] ∧
    ¬ Transparent (headerParts localClient.header) serverReads [⟨relayBuffer, none⟩] := by
  rw [server_transparent_iff, lazy_transparent_iff, FirstFits, FirstFits, length_relayBuffer, room]
  refine ⟨fun h => ?_, fun h => ?_⟩
  · have hfit := (h.1 rfl).1
    omega
  · have hfit := (h.1 rfl).1
    omega

end

end Ntr.Proto.Vless
