/-
TLS records, as the mirror reads and writes them (`transport/tlsmirror/record.go`).
-/
import Ntr.Go.Reader
import Ntr.Go.Varint

namespace Ntr.Transport.TlsMirror

open Go List LawfulReader

def recordTypeChangeCipherSpec : UInt8 := 20
def recordTypeAlert : UInt8 := 21
def recordTypeHandshake : UInt8 := 22
def recordTypeApplicationData : UInt8 := 23

def maxTLSRecordPayload : Nat := 16384

def errTooLarge : Error := .text (lit "tlsmirror: tls record is too large")

structure Record where
  recordType : UInt8
  version : UInt8 × UInt8
  fragment : Str
  inserted : Bool := false
  deriving DecidableEq

/-- What `writeRecord` writes. -/
def Record.bytes (r : Record) : Str :=
  [r.recordType, r.version.1, r.version.2] ++ putBE 2 r.fragment.length ++ r.fragment

def writeRecord (r : Record) : Except Error Str :=
  if maxTLSRecordPayload < r.fragment.length then .error errTooLarge else .ok r.bytes

/-- `readRecord`: the record or an error, the raw bytes, and the reader behind
them. -/
def readRecord {σ : Type} [Reader σ] (s : σ) : (Except Error Record × Str) × σ :=
  match Reader.readPart 5 s with
  | ((header, some e), s) => ((.error e, header), s)
  | ((header, none), s) =>
    if maxTLSRecordPayload < beNat (header.drop 3) then ((.error errTooLarge, header), s)
    else
      match Reader.readPart (beNat (header.drop 3)) s with
      | ((fragment, some e), s) => ((.error e, header ++ fragment), s)
      | ((fragment, none), s) =>
        ((.ok ⟨header.headD 0, ((header.drop 1).headD 0, (header.drop 2).headD 0), fragment, false⟩,
          header ++ fragment), s)

/-! ### The first record -/

/-- What `peekFirstHandshakeRecord` finds in a buffer. -/
inductive Peek where
  | needMore
  | bad (e : Error)
  | found (r : Record) (processed : Nat)

/-- The buffer does not start with a handshake record. -/
def Peek.isBad : Peek → Bool
  | bad _ => true
  | _ => false

def errFirstType : Error := .text (lit "tlsmirror: unexpected first tls record type")
def errFirstVersion : Error := .text (lit "tlsmirror: unexpected first tls record version")

/-- What is wrong with the five bytes of the first header. -/
def firstHeaderErr (t v w x y : UInt8) : Option Error :=
  if t ≠ recordTypeHandshake then some errFirstType
  else if ¬ (v = 0x01 ∨ v = 0x02 ∨ v = 0x03 ∧ ¬ w > 0x03) then some errFirstVersion
  else if maxTLSRecordPayload < beNat [x, y] then some errTooLarge
  else none

/-- `peekFirstHandshakeRecord`. -/
def peekFirst : Str → Peek
  | t :: v :: w :: x :: y :: b =>
    match firstHeaderErr t v w x y with
    | some e => .bad e
    | none =>
      if b.length < beNat [x, y] then .needMore
      else .found ⟨t, (v, w), b.take (beNat [x, y]), false⟩ (5 + beNat [x, y])
  | _ => .needMore

/-! ### Records in bytes -/

/-- The record at the front of the bytes, if it is there whole. -/
def splitRecord : Str → Option (Record × Str)
  | t :: v :: w :: x :: y :: b =>
    if maxTLSRecordPayload < beNat [x, y] ∨ b.length < beNat [x, y] then none
    else some (⟨t, (v, w), b.take (beNat [x, y]), false⟩, b.drop (beNat [x, y]))
  | _ => none

/-- The record is one of those that the bytes start with, one behind the other. -/
inductive InFrames : Str → Record → Prop
  | head {b rest : Str} {r : Record} : splitRecord b = some (r, rest) → InFrames b r
  | tail {b rest : Str} {r r' : Record} :
      splitRecord b = some (r', rest) → InFrames rest r → InFrames b r

lemma splitRecord_bytes {b rest : Str} {r : Record} (h : splitRecord b = some (r, rest)) :
    b = r.bytes ++ rest ∧ r.fragment.length ≤ maxTLSRecordPayload := by
  rcases b with _ | ⟨t, _ | ⟨v, _ | ⟨w, _ | ⟨x, _ | ⟨y, b⟩⟩⟩⟩⟩
  iterate 5 cases h
  rw [splitRecord] at h
  split_ifs at h with hshort
  rw [not_or, Nat.not_lt, Nat.not_lt] at hshort
  obtain ⟨rfl, rfl⟩ := Prod.mk.inj (Option.some.inj h)
  have hlen : (b.take (beNat [x, y])).length = beNat [x, y] := length_take_of_le hshort.2
  have hput : putBE 2 (beNat [x, y]) = [x, y] := putBE_beNat [x, y]
  rw [Record.bytes]
  dsimp only
  rw [hlen, hput]
  refine ⟨?_, hshort.1⟩
  simp

lemma exists_header {b : Str} (h : 5 ≤ b.length) :
    ∃ t v w x y rest, b = t :: v :: w :: x :: y :: rest := by
  rcases b with _ | ⟨t, _ | ⟨v, _ | ⟨w, _ | ⟨x, _ | ⟨y, b⟩⟩⟩⟩⟩
  iterate 5 simp at h
  exact ⟨t, v, w, x, y, b, rfl⟩

lemma splitRecord_of_short {b : Str} (h : b.length < 5) : splitRecord b = none := by
  rcases b with _ | ⟨t, _ | ⟨v, _ | ⟨w, _ | ⟨x, _ | ⟨y, b⟩⟩⟩⟩⟩
  iterate 5 rfl
  simp at h
  omega

lemma peekFirst_of_short {b : Str} (h : b.length < 5) : peekFirst b = .needMore := by
  rcases b with _ | ⟨t, _ | ⟨v, _ | ⟨w, _ | ⟨x, _ | ⟨y, b⟩⟩⟩⟩⟩
  iterate 5 rfl
  simp at h
  omega

/-- **What `readRecord` gives**: the record at the front, or an error with bytes that
are all that was taken. -/
lemma readRecord_spec {σ : Type} [LawfulReader σ] (s : σ) :
    (∃ r rest s', splitRecord (bytes s) = some (r, rest) ∧
        readRecord s = ((.ok r, r.bytes), s') ∧ bytes s' = rest) ∨
      splitRecord (bytes s) = none ∧ ∃ e raw s', readRecord s = ((.error e, raw), s') ∧
          bytes s = raw ++ bytes s' := by
  obtain ⟨hpart, hafter⟩ := Reader.readPart_eq 5 s
  rcases hr : Reader.readPart 5 s with ⟨⟨header, e⟩, s₁⟩
  rw [hr] at hpart hafter
  obtain ⟨rfl, rfl⟩ := Prod.mk.inj hpart
  have hbytes : bytes s₁ = (bytes s).drop 5 :=
    congrArg Source.bytes hafter
  have hsource : (Reader.source s).bytes = bytes s := rfl
  rw [readRecord, hr, hsource]
  by_cases hlen : 5 ≤ (bytes s).length
  · obtain ⟨t, v, w, x, y, b, hb⟩ := exists_header hlen
    have htake : (t :: v :: w :: x :: y :: b).take 5 = [t, v, w, x, y] := rfl
    have hsize : ([t, v, w, x, y] : Str).drop 3 = [x, y] := rfl
    have hrest : (t :: v :: w :: x :: y :: b).drop 5 = b := rfl
    rw [hb, hrest] at hbytes
    rw [if_pos hlen, hb, htake]
    dsimp only
    rw [hsize, splitRecord]
    by_cases hbig : maxTLSRecordPayload < beNat [x, y]
    · rw [if_pos hbig, if_pos (.inl hbig)]
      exact .inr ⟨rfl, _, _, s₁, rfl, by rw [hbytes]; rfl⟩
    · rw [if_neg hbig]
      obtain ⟨hpart', hafter'⟩ := Reader.readPart_eq (beNat [x, y]) s₁
      rcases hr' : Reader.readPart (beNat [x, y]) s₁ with ⟨⟨fragment, e'⟩, s₂⟩
      rw [hr'] at hpart' hafter'
      obtain ⟨rfl, rfl⟩ := Prod.mk.inj hpart'
      have hbytes' : bytes s₂ = b.drop (beNat [x, y]) := by
        rw [← hbytes]
        exact congrArg Source.bytes hafter'
      have hsource' : (Reader.source s₁).bytes = b := hbytes
      rw [hsource']
      by_cases hshort : b.length < beNat [x, y]
      · rw [if_neg (Nat.not_le.mpr hshort), if_pos (.inr hshort)]
        refine .inr ⟨rfl, _, _, s₂, rfl, ?_⟩
        rw [hbytes', take_of_length_le (Nat.le_of_lt hshort),
          drop_of_length_le (Nat.le_of_lt hshort)]
        simp
      · have hnot : ¬ (maxTLSRecordPayload < beNat [x, y] ∨ b.length < beNat [x, y]) := by
          rintro (h | h)
          · exact hbig h
          · exact hshort h
        rw [if_pos (Nat.not_lt.mp hshort), if_neg hnot]
        have hraw : [t, v, w, x, y] ++ b.take (beNat [x, y]) =
            Record.bytes ⟨t, (v, w), b.take (beNat [x, y]), false⟩ := by
          have hput : putBE 2 (beNat [x, y]) = [x, y] := putBE_beNat [x, y]
          rw [Record.bytes]
          dsimp only
          rw [length_take_of_le (Nat.not_lt.mp hshort), hput]
          rfl
        refine .inl ⟨_, _, s₂, rfl, ?_, hbytes'⟩
        dsimp only
        rw [hraw]
        rfl
  · have hshort : (bytes s).length < 5 := Nat.not_le.mp hlen
    rw [if_neg hlen]
    refine .inr ⟨splitRecord_of_short hshort, _, _, s₁, rfl, ?_⟩
    rw [hbytes, take_append_drop]

section
variable {a b : Str} {r : Record} {n : Nat}

lemma isBad_of_short (h : a.length < 5) : (peekFirst a).isBad = false := by
  rw [peekFirst_of_short h]
  rfl

lemma isBad_append (h : 5 ≤ a.length) (b : Str) :
    (peekFirst (a ++ b)).isBad = (peekFirst a).isBad := by
  obtain ⟨t, v, w, x, y, a, rfl⟩ := exists_header h
  simp only [cons_append, peekFirst]
  cases firstHeaderErr t v w x y with
  | some e => rfl
  | none =>
    dsimp only
    split_ifs <;> rfl

lemma length_of_needMore (h : peekFirst a = .needMore) : a.length < 5 + maxTLSRecordPayload := by
  by_cases hlen : 5 ≤ a.length
  · obtain ⟨t, v, w, x, y, a, rfl⟩ := exists_header hlen
    rw [peekFirst] at h
    cases herr : firstHeaderErr t v w x y with
    | some e => rw [herr] at h; cases h
    | none =>
      rw [herr] at h
      dsimp only at h
      split_ifs at h with hshort
      have hsize : ¬ maxTLSRecordPayload < beNat [x, y] := by
        intro hbig
        rw [firstHeaderErr] at herr
        split_ifs at herr
      simp only [length_cons]
      omega
  · exact Nat.lt_of_lt_of_le (Nat.not_le.mp hlen) (Nat.le_add_right _ _)

/-- **What is found in the buffer** is the record at the front of the connection. -/
lemma peekFirst_found (h : peekFirst a = .found r n) :
    n ≤ a.length ∧ ∀ b, splitRecord (a ++ b) = some (r, a.drop n ++ b) := by
  have hlen : 5 ≤ a.length := by
    by_contra hshort
    rw [peekFirst_of_short (Nat.not_le.mp hshort)] at h
    cases h
  obtain ⟨t, v, w, x, y, a, rfl⟩ := exists_header hlen
  rw [peekFirst] at h
  cases herr : firstHeaderErr t v w x y with
  | some e => rw [herr] at h; cases h
  | none =>
    rw [herr] at h
    dsimp only at h
    split_ifs at h with hshort
    obtain ⟨rfl, rfl⟩ := Peek.found.inj h
    have hsize : ¬ maxTLSRecordPayload < beNat [x, y] := by
      intro hbig
      rw [firstHeaderErr] at herr
      split_ifs at herr
    refine ⟨?_, fun b => ?_⟩
    · simp only [length_cons]
      omega
    · have hnot : ¬ (maxTLSRecordPayload < beNat [x, y] ∨ (a ++ b).length < beNat [x, y]) := by
        rw [length_append]
        omega
      have hdrop : (t :: v :: w :: x :: y :: a).drop (5 + beNat [x, y]) = a.drop (beNat [x, y]) := by
        rw [← drop_drop]
        rfl
      rw [hdrop]
      simp only [cons_append, splitRecord]
      rw [if_neg hnot, take_append_of_le_length (by omega), drop_append_of_le_length (by omega)]

lemma length_le_of_found (ha : peekFirst a = .needMore) (h : peekFirst (a ++ b) = .found r n) :
    a.length ≤ n := by
  by_cases hlen : 5 ≤ a.length
  · obtain ⟨t, v, w, x, y, a, rfl⟩ := exists_header hlen
    simp only [cons_append] at h
    rw [peekFirst] at h ha
    cases herr : firstHeaderErr t v w x y with
    | some e => rw [herr] at ha; cases ha
    | none =>
      rw [herr] at h ha
      dsimp only at h ha
      split_ifs at h ha with hlong hshort
      obtain ⟨-, rfl⟩ := Peek.found.inj h
      simp only [length_cons]
      omega
  · have hn : 5 ≤ n := by
      have hab : 5 ≤ (a ++ b).length := by
        by_contra hshort
        rw [peekFirst_of_short (Nat.not_le.mp hshort)] at h
        cases h
      obtain ⟨t, v, w, x, y, c, hc⟩ := exists_header hab
      rw [hc, peekFirst] at h
      cases herr : firstHeaderErr t v w x y with
      | some e => rw [herr] at h; cases h
      | none =>
        rw [herr] at h
        dsimp only at h
        split_ifs at h
        obtain ⟨-, rfl⟩ := Peek.found.inj h
        omega
    omega

end

end Ntr.Transport.TlsMirror
