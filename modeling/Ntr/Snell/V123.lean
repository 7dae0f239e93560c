/-
The chunks of Snell v1, v2 and v3 (`snellv123/framing.go`): the salt in front of the
first one, and then the length and the payload, sealed one after the other.

* `takes_chunk`: a chunk is taken off, and both counters have made the same steps;
* `lockstep`: the connections on top of it read what was written.
-/
import Ntr.Go.Varint
import Ntr.Snell.Conns

namespace Ntr.Snell.V123

open Go
open Lib Lib.FailState

def ssPayloadMask : Nat := 0x3FFF

/-- `SenderSS`, with the salt that it draws for its first chunk. -/
structure SenderSS (cr : Crypto) where
  psk : Str
  chacha : Bool
  aead : Option Aead := none
  nonce : Nonce := 0
  salt : Str
  length_salt : salt.length = 16

variable {cr : Crypto}

namespace SenderSS

/-- The salt, if this is the first chunk, and the cipher. -/
def started (s : SenderSS cr) : Str × Aead :=
  match s.aead with
  | some a => ([], a)
  | none => (s.salt, cr.newAEAD s.chacha s.psk s.salt)

def chunk (s : SenderSS cr) (x : Str) : Str × SenderSS cr :=
  let len := s.started.1 ++ cr.sealed s.started.2 s.nonce (putBE 2 x.length) []
  if x = [] then (len, { s with aead := some s.started.2, nonce := s.nonce + 1 })
  else
    (len ++ cr.sealed s.started.2 (s.nonce + 1) x [],
      { s with aead := some s.started.2, nonce := s.nonce + 1 + 1 })

def encodeChunk (s : SenderSS cr) (payload : Str) : Str × SenderSS cr :=
  if payload = [] then s.chunk [] else frames chunk s (pieces (ssPayloadMask - 1) payload)

end SenderSS

instance instChunkEncoder : ChunkEncoder (SenderSS cr) where
  encodeChunk s payload := (.ok (s.encodeChunk payload).1, (s.encodeChunk payload).2)

abbrev ReceiverSS (cr : Crypto) := Receiver .ss cr

section
variable {σ : Type} [Reader σ]

def decodePayload (a : Aead) (size : Nat) : FailState Error (ReceiverSS cr × σ) (Option Str) :=
  if size = 0 then pure none
  else do
    let payBuf ← second (Reader.readFull (size + 16))
    let payload ← Receiver.openNext a payBuf
    pure (some payload)

/-- What `DecodeChunk` makes of the bytes of a length. -/
def decodeFrom (a : Aead) (lenBuf : Str) : FailState Error (ReceiverSS cr × σ) (Option Str) := do
  let lenPt ← Receiver.openNext a lenBuf
  decodePayload a (beNat (lenPt.take 2) &&& ssPayloadMask)

def decodeChunk : FailState Error (ReceiverSS cr × σ) (Option Str) := do
  let a ← Receiver.start
  let lenBuf ← second (Reader.readFull (2 + 16))
  decodeFrom a lenBuf

end

instance instChunkDecoder : ChunkDecoder (ReceiverSS cr) where
  pkg := lit "snellv123"
  decodeChunk := decodeChunk

/-! ### In step -/

/-- Both ends have the same key, if they have one, and the same counter. -/
structure Synced (s : SenderSS cr) (r : ReceiverSS cr) : Prop where
  psk : s.psk = r.psk
  chacha : s.chacha = r.chacha
  aead : s.aead = r.aead
  nonce : s.nonce = r.nonce

variable {s : SenderSS cr} {r : ReceiverSS cr} {x : Str}

/-- The receiver has the cipher of the sender once the salt has come. -/
lemma Synced.runs_start (h : Synced s r) {σ : Type} [LawfulReader σ] {t : σ} {rest : Str}
    {e : Error} (ht : Reader.source t = ⟨s.started.1 ++ rest, e⟩) :
    ∃ t', Runs Receiver.start (r, t) (.ok s.started.2)
      ({ r with aead := some s.started.2 }, t') ∧ Reader.source t' = ⟨rest, e⟩ := by
  cases ha : s.aead with
  | some a =>
    have hr : r.aead = some a := h.aead.symm.trans ha
    have hstarted : s.started = ([], a) := by rw [SenderSS.started, ha]
    rw [hstarted] at ht ⊢
    refine ⟨t, ?_, ht⟩
    rw [← hr]
    exact runs_start_of_some hr
  | none =>
    have hr : r.aead = none := h.aead.symm.trans ha
    have hstarted : s.started = (s.salt, cr.newAEAD r.chacha r.psk s.salt) := by
      rw [SenderSS.started, ha, h.psk, h.chacha]
    rw [hstarted] at ht ⊢
    exact runs_start_of_none hr s.length_salt ht

lemma decode_length (hx : x.length ≤ ssPayloadMask) :
    beNat ((putBE 2 x.length).take 2) &&& ssPayloadMask = x.length := by
  have hlt : x.length < 2 ^ 14 := by
    rw [ssPayloadMask] at hx
    omega
  have hmask : ssPayloadMask = 2 ^ 14 - 1 := rfl
  have hbytes : x.length % 256 ^ 2 = x.length := Nat.mod_eq_of_lt (by omega)
  rw [List.take_of_length_le (by rw [length_putBE]), beNat_putBE, hbytes, hmask,
    Nat.and_two_pow_sub_one_eq_mod, Nat.mod_eq_of_lt hlt]

/-- **A chunk is taken off**, and both counters have made the same steps. -/
lemma takes_chunk (h : Synced s r) (hx : x.length ≤ ssPayloadMask) :
    ∃ r', Takes r (s.chunk x).1 (if x = [] then none else some x) r' ∧ Synced (s.chunk x).2 r' := by
  by_cases hnil : x = []
  · refine ⟨{ r with aead := some s.started.2, nonce := r.nonce + 1 }, ?_, ?_⟩
    · intro σ _ t rest e ht
      rw [SenderSS.chunk, if_pos hnil, List.append_assoc] at ht
      obtain ⟨t₁, hstart, ht₁⟩ := h.runs_start ht
      obtain ⟨t₂, hlen, ht₂⟩ := Reader.exists_runs_readFull ht₁
      rw [length_sealed, length_putBE] at hlen
      refine ⟨t₂, hstart.bind ((hlen.second _).bind ?_), ht₂⟩
      rw [h.nonce]
      refine Runs.bind runs_openNext ?_
      rw [decode_length hx, if_pos hnil, hnil, List.length_nil, decodePayload, if_pos rfl]
      exact runs_pure
    · rw [SenderSS.chunk, if_pos hnil]
      exact ⟨h.psk, h.chacha, rfl, congrArg (· + 1) h.nonce⟩
  · refine ⟨{ r with aead := some s.started.2, nonce := r.nonce + 1 + 1 }, ?_, ?_⟩
    · intro σ _ t rest e ht
      rw [SenderSS.chunk, if_neg hnil, List.append_assoc, List.append_assoc] at ht
      obtain ⟨t₁, hstart, ht₁⟩ := h.runs_start ht
      obtain ⟨t₂, hlen, ht₂⟩ := Reader.exists_runs_readFull ht₁
      obtain ⟨t₃, hpay, ht₃⟩ := Reader.exists_runs_readFull ht₂
      rw [length_sealed, length_putBE] at hlen
      rw [length_sealed] at hpay
      refine ⟨t₃, hstart.bind ((hlen.second _).bind ?_), ht₃⟩
      rw [h.nonce]
      refine Runs.bind runs_openNext ?_
      rw [decode_length hx, if_neg hnil, decodePayload, if_neg (mt List.length_eq_zero_iff.mp hnil)]
      exact (hpay.second _).bind (Runs.bind (h.nonce ▸ runs_openNext) runs_pure)
    · rw [SenderSS.chunk, if_neg hnil]
      exact ⟨h.psk, h.chacha, rfl, congrArg (· + 1 + 1) h.nonce⟩

lemma synced_start {psk salt : Str} {chacha : Bool} (hsalt : salt.length = 16) :
    @Synced cr ⟨psk, chacha, none, 0, salt, hsalt⟩ ⟨psk, chacha, none, 0⟩ :=
  ⟨rfl, rfl, rfl, rfl⟩

lemma takes_encodeChunk (h : Synced s r) {payload : Str} (hne : payload ≠ []) :
    ∃ r', TakesAll r (s.encodeChunk payload).1 ((pieces (ssPayloadMask - 1) payload).map some) r' ∧
      Synced (s.encodeChunk payload).2 r' := by
  rw [SenderSS.encodeChunk, if_neg hne]
  refine takesAll_frames (P := fun x => x ≠ [] ∧ x.length ≤ ssPayloadMask) ?_ h fun x hx => ?_
  · intro s r x hs hx
    have htakes := takes_chunk hs hx.2
    rwa [if_neg hx.1] at htakes
  · exact mem_pieces hx

/-- **The versions 1 to 3 stay in step.** -/
lemma lockstep : Lockstep (@Synced cr) where
  write {s r p} h hp := by
    obtain ⟨r', htakes, hs'⟩ := takes_encodeChunk h hp
    refine ⟨_, _, _, r', rfl, flatten_pieces _ p, fun x hx => (mem_pieces hx).1, fun hlen => ?_,
      htakes, hs'⟩
    rw [pieces_of_ne_nil _ hp]
    refine ⟨_, _, rfl, ?_⟩
    rw [List.length_take, ssPayloadMask]
    omega
  close {s r} h := by
    obtain ⟨r', htakes, hs'⟩ := takes_chunk h (x := []) (Nat.zero_le _)
    exact ⟨_, _, r', rfl, htakes, hs'⟩
  ended _ _ _ _ _ ht := runs_start_end ht (by decide)

end Ntr.Snell.V123
