/-
The recorder of a handshake (`service/inbound.go`). With a decoy site configured, the
stream that the handshake reads is wrapped in a `recordStream`, which keeps what was
read, so that a failed handshake can be replayed to the site.

* `recorder_bounded_iff`: the recorder is part of the stream that a successful
  handshake hands on, so it keeps the whole upload. The bound by the handshake holds
  only for connections that bring nothing behind their header.
-/
import Ntr.Proto.Vless
import Ntr.Proto.Trojan

namespace Ntr.Service

open Go Proto Lib Lib.FailState

/-! ### The recorder -/

structure RecordStream where
  below : Stream
  buf : Str := []

namespace RecordStream

def read (r : RecordStream) (n : Nat) : Except Error Str × RecordStream :=
  match r.below.read n with
  | (.ok d, s) => (.ok d, ⟨s, r.buf ++ d⟩)
  | (.error e, s) => (.error e, ⟨s, r.buf⟩)

lemma read_cases (r : RecordStream) {n : Nat} (hn : 0 < n) :
    (r.below.bytes = [] ∧ r.read n = (.error r.below.readErr, r)) ∨
      ∃ d s, r.read n = (.ok d, ⟨s, r.buf ++ d⟩) ∧ d ≠ [] ∧ d.length ≤ n ∧
        r.below.bytes = d ++ s.bytes ∧ s.readErr = r.below.readErr := by
  rcases LawfulReader.read_cases r.below hn with ⟨hnil, hread⟩ | ⟨d, s, hread, hd, hlen, hb, he⟩
  · exact .inl ⟨hnil, by rw [read, show r.below.read n = _ from hread]; rfl⟩
  · exact .inr ⟨d, s, by rw [read, show r.below.read n = _ from hread], hd, hlen, hb, he⟩

end RecordStream

instance instLawfulReaderRecordStream : LawfulReader RecordStream where
  read := RecordStream.read
  bytes r := r.below.bytes
  readErr r := r.below.readErr
  read_cases r n hn := by
    rcases r.read_cases hn with h | ⟨d, s, hread, hd, hlen, hb, he⟩
    · exact .inl h
    · exact .inr ⟨d, ⟨s, r.buf ++ d⟩, hread, hd, hlen, hb, he⟩

/-- The recorder has gained what the connection has lost. -/
def Recorded (r r' : RecordStream) : Prop :=
  ∃ c, r'.buf = r.buf ++ c ∧ r.below.bytes = c ++ r'.below.bytes

instance instReflRecorded : Std.Refl Recorded :=
  ⟨fun r => ⟨[], (List.append_nil r.buf).symm, rfl⟩⟩

instance instIsTransRecorded : IsTrans RecordStream Recorded :=
  ⟨fun r r' r'' ⟨c, hbuf, hbytes⟩ ⟨c', hbuf', hbytes'⟩ => ⟨c ++ c', by
    rw [hbuf', hbuf, List.append_assoc], by rw [hbytes, hbytes', List.append_assoc]⟩⟩

lemma recorded_read (r : RecordStream) {n : Nat} (hn : 0 < n) : Recorded r (r.read n).2 := by
  rcases r.read_cases hn with ⟨-, hread⟩ | ⟨d, s, hread, -, -, hb, -⟩
  · rw [hread]
    exact refl r
  · rw [hread]
    exact ⟨d, rfl, hb⟩

lemma recorded_readLoop (rounds missing : Nat) (got : Str) (r : RecordStream) :
    Recorded r (Reader.readLoop rounds missing got r).2 := by
  induction rounds generalizing missing got r with
  | zero => cases missing <;> exact refl r
  | succ rounds ih =>
    cases missing with
    | zero => exact refl r
    | succ missing =>
      have hread : Recorded r (Reader.read r (missing + 1)).2 :=
        recorded_read r (Nat.succ_pos missing)
      rw [Reader.readLoop]
      rcases hr : Reader.read r (missing + 1) with ⟨e | d, r'⟩
      · rw [hr] at hread
        exact hread
      · rw [hr] at hread
        exact IsTrans.trans _ _ _ hread (ih _ _ r')

lemma keeps_readFull (n : Nat) :
    Keeps Recorded (Reader.readFull n : FailState Error RecordStream Str) := by
  intro r
  have hloop : Recorded r (Reader.readPart n r).2 := recorded_readLoop n n [] r
  change Recorded r (Reader.whole (Reader.readPart n r)).2
  rw [Reader.whole_snd]
  exact hloop

/-! ### Handshakes through the recorder -/

/-- The protocols whose handshakes are modelled over a reader. -/
inductive Protocol where
  | trojan
  | vless
  deriving DecidableEq

namespace Protocol

/-- `ServerHandshake`. A recorder is no carrier of TLS, so that VLESS's Vision fails
over it. -/
def serverHandshake {σ : Type} [Reader σ] (auth : Authenticator) :
    Protocol → FailState Error σ Request
  | trojan => Trojan.serverHandshake auth
  | vless => do
    let r ← Vless.serverHandshake auth false
    pure r.2

variable (p : Protocol) (auth : Authenticator)

lemma simulates_serverHandshake {σ : Type} [LawfulReader σ] :
    Simulates Reader.source (p.serverHandshake auth : FailState Error σ Request)
      (p.serverHandshake auth) := by
  cases p with
  | trojan => exact Trojan.simulates_serverHandshake auth
  | vless => exact (Vless.simulates_serverHandshake auth false).bind fun _ => .pure _

lemma framed_serverHandshake : Reader.Framed (p.serverHandshake auth) := by
  cases p with
  | trojan => exact Trojan.framed_serverHandshake auth
  | vless => exact (Vless.framed_serverHandshake auth false).bind fun _ => .pure _

lemma keeps_serverHandshake :
    Keeps Recorded (p.serverHandshake auth : FailState Error RecordStream Request) := by
  cases p with
  | trojan => exact Trojan.keeps_serverHandshake keeps_readFull auth
  | vless => exact (Vless.keeps_serverHandshake keeps_readFull auth false).bind fun _ => .pure _

end Protocol

/-- `Handshake` with a decoy site: the request and the recorder, or the recorder to
replay. What the protocol hands on reads through the recorder: Trojan's is the
recorder itself, VLESS's `serverStream` has it below. -/
def handshake (p : Protocol) (auth : Authenticator) (s : Stream) :
    Except Error Request × RecordStream :=
  ((p.serverHandshake auth).outcome (RecordStream.mk s []),
    (p.serverHandshake auth).after (RecordStream.mk s []))

def RecordStream.reads (r : RecordStream) : List Nat → RecordStream
  | [] => r
  | n :: ns => (r.read n).2.reads ns

/-- After a successful handshake, whatever the relay reads, the recorder holds no more
than the handshake took from the connection. -/
def RecorderBounded (p : Protocol) (auth : Authenticator) (s : Stream) : Prop :=
  ∀ req r, handshake p auth s = (.ok req, r) → ∀ ns : List Nat, (∀ n ∈ ns, 0 < n) →
    (r.reads ns).buf.length ≤ s.bytes.length - r.below.bytes.length

/-- The bytes are a header that the handshake takes whole and accepts. -/
def IsHeader (p : Protocol) (auth : Authenticator) (header : Str) : Prop :=
  ∃ req, ∀ e, Runs (p.serverHandshake auth) (⟨header, e⟩ : Source) (.ok req) ⟨[], e⟩

section
variable {p : Protocol} {auth : Authenticator} {s : Stream} {header payload : Str}

/-- The recorder behind the handshake holds the header, and the payload is to come. -/
lemma handshake_spec (hh : IsHeader p auth header) (hs : s.bytes = header ++ payload) :
    ∃ req r, handshake p auth s = (.ok req, r) ∧ r.buf = header ∧ r.below.bytes = payload := by
  obtain ⟨req, hrun⟩ := hh
  obtain ⟨hout, hafter⟩ := hrun s.readErr
  -- the bytes behind the header do not matter to the handshake
  have hmore := p.framed_serverHandshake auth ⟨header, s.readErr⟩ payload req hout
  rw [hafter] at hmore
  have hsource : Reader.source (RecordStream.mk s []) = Reader.more ⟨header, s.readErr⟩ payload :=
    congrArg (fun b => (⟨b, s.readErr⟩ : Source)) hs
  rw [← hsource] at hmore
  obtain ⟨hout', hafter'⟩ := (p.simulates_serverHandshake auth).runs hmore
  have hleft : ((p.serverHandshake auth).after (RecordStream.mk s [])).below.bytes = payload :=
    congrArg Source.bytes hafter'
  obtain ⟨c, hbuf, hbytes⟩ := p.keeps_serverHandshake auth (RecordStream.mk s [])
  refine ⟨req, _, Prod.ext hout' rfl, ?_, hleft⟩
  -- what was recorded is what was taken
  rw [hleft] at hbytes
  have hc : header = c := List.append_cancel_right (hs.symm.trans hbytes)
  rw [hc]
  exact hbuf

lemma recorded_reads (r : RecordStream) (ns : List Nat) (hns : ∀ n ∈ ns, 0 < n) :
    Recorded r (r.reads ns) := by
  induction ns generalizing r with
  | nil => exact refl r
  | cons n ns ih =>
    have hread := recorded_read r (hns n List.mem_cons_self)
    exact IsTrans.trans _ _ _ hread (ih _ fun m hm => hns m (List.mem_cons_of_mem _ hm))

lemma not_recorderBounded (hh : IsHeader p auth header) (hs : s.bytes = header ++ payload)
    (hp : payload ≠ []) : ¬ RecorderBounded p auth s := by
  intro hbound
  obtain ⟨req, r, hok, hbuf, hleft⟩ := handshake_spec hh hs
  have hret := hbound req r hok [1] (by simp)
  have hread : r.reads [1] = (r.read 1).2 := rfl
  rcases r.read_cases Nat.one_pos with ⟨hnil, -⟩ | ⟨d, s', hone, hd, -⟩
  · exact hp (hleft.symm.trans hnil)
  · have hpos : 0 < d.length := List.length_pos_iff.mpr hd
    rw [hread, hone, hbuf, hs, hleft] at hret
    simp only [List.length_append] at hret
    omega

/-- **The recorder is bounded by the handshake only where nothing follows it.** -/
theorem recorder_bounded_iff (hh : IsHeader p auth header) (hs : s.bytes = header ++ payload) :
    RecorderBounded p auth s ↔ payload = [] := by
  constructor
  · intro hbound
    by_contra hp
    exact not_recorderBounded hh hs hp hbound
  · rintro rfl req r hok ns hns
    obtain ⟨req', r', hok', hbuf, hleft⟩ := handshake_spec hh hs
    obtain rfl : r' = r := congrArg Prod.snd (hok'.symm.trans hok)
    obtain ⟨c, hret, hbytes⟩ := recorded_reads r' ns hns
    rw [hleft] at hbytes
    obtain ⟨rfl, -⟩ := List.append_eq_nil_iff.mp hbytes.symm
    rw [hret, hbuf, hs, hleft, List.append_nil, List.length_nil, Nat.sub_zero]

/-- A Trojan header for `127.0.0.1:80`. -/
def trojanHeader : Str :=
  List.replicate 56 0x61 ++ [0x0D, 0x0A, 1, 1, 127, 0, 0, 1, 0, 80, 0x0D, 0x0A]

def anyone : Authenticator := fun _ _ => some 1

lemma isHeader_trojanHeader : IsHeader .trojan anyone trojanHeader :=
  ⟨⟨.fromIPPort ⟨.v4 0x7F000001, 80⟩, 1, .tcp, 1⟩, fun _ => ⟨rfl, rfl⟩⟩

theorem recorder_bounded_header : IsHeader .trojan anyone trojanHeader ∧
    RecorderBounded .trojan anyone { segments := [trojanHeader] } := by
  have hs : Stream.bytes { segments := [trojanHeader] } = trojanHeader ++ [] := by
    simp [Stream.bytes]
  exact ⟨isHeader_trojanHeader, (recorder_bounded_iff isHeader_trojanHeader hs).mpr rfl⟩

/-- A Trojan connection that sends one more byte than its header. -/
theorem recorder_keeps_payload :
    ¬ RecorderBounded .trojan anyone { segments := [trojanHeader, [0x47]] } := by
  have hs : Stream.bytes { segments := [trojanHeader, [0x47]] } = trojanHeader ++ [0x47] := by
    simp [Stream.bytes]
  exact not_recorderBounded isHeader_trojanHeader hs (by decide)

end

end Ntr.Service
