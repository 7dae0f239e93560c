/-
The frames of Snell v4 and v5 (`snellv45/snellv45.go`): the salt and some padding in
the first one, a sealed header with both lengths, and the sealed payload, whose even
bytes change places with those of the padding.

* `takes_frame`: a frame is taken off whatever its padding is, and both counters have
  made the same steps;
* `lockstep`: the connections on top of it read what was written.
-/
import Ntr.Go.Varint
import Ntr.Lib.Swaps
import Ntr.Snell.Conns

namespace Ntr.Snell.V45

open Go List
open Lib Lib.FailState

def maxPayload : Nat := 0x3FFF
def initPadMin : Nat := 0x100
def initPadSpan : Nat := 0x100

def errBadHeader : Error := .text (lit "snellv45: bad frame header")
def errTooLarge : Error := .text (lit "snellv45: frame too large")

/-! ### The swap -/

def swapPadding (pad pc : Str) : Str × Str :=
  swaps (List.range' 0 ((min pad.length pc.length + 1) / 2) 2) (pad, pc)

lemma length_fst_swapPadding (pad pc : Str) : (swapPadding pad pc).1.length = pad.length :=
  length_fst_swaps _ _

lemma length_snd_swapPadding (pad pc : Str) : (swapPadding pad pc).2.length = pc.length :=
  length_snd_swaps _ _

/-- **The swap is undone by itself**, for every length of the two. -/
lemma swapPadding_swapPadding (pad pc : Str) :
    swapPadding (swapPadding pad pc).1 (swapPadding pad pc).2 = (pad, pc) := by
  rw [swapPadding, length_fst_swapPadding, length_snd_swapPadding]
  exact swaps_swaps _ _

/-! ### Frames -/

/-- `Sender`, with the salt and the padding that it draws. -/
structure Sender (cr : Crypto) where
  aead : Aead
  nonce : Nonce := 0
  salt : Str
  length_salt : salt.length = 16
  saltSent : Bool := false
  initialPad : Str
  length_initialPad : initPadMin ≤ initialPad.length ∧ initialPad.length < initPadMin + initPadSpan

variable {cr : Crypto}

namespace Sender

/-- `NewSender`. -/
def new (cr : Crypto) (psk salt initialPad : Str) (hsalt : salt.length = 16)
    (hpad : initPadMin ≤ initialPad.length ∧ initialPad.length < initPadMin + initPadSpan) :
    Sender cr :=
  ⟨cr.newAEAD false psk salt, 0, salt, hsalt, false, initialPad, hpad⟩

def header (padLen payLen : Nat) : Str := [4, 0, 0] ++ putBE 2 padLen ++ putBE 2 payLen

/-- `frame`, with the padding that it draws. -/
def frame (s : Sender cr) (payload pad : Str) : Str × Sender cr :=
  let hc := (if s.saltSent then [] else s.salt) ++
    cr.sealed s.aead s.nonce (header pad.length payload.length) []
  if payload = [] then (hc ++ pad, { s with saltSent := true, nonce := s.nonce + 1 })
  else
    let x := swapPadding pad (cr.sealed s.aead (s.nonce + 1) payload [])
    (hc ++ x.1 ++ x.2, { s with saltSent := true, nonce := s.nonce + 1 + 1 })

/-- The next frame of a payload: the first one is padded. -/
def next (s : Sender cr) (payload : Str) : Str × Sender cr :=
  s.frame payload (if s.saltSent then [] else s.initialPad)

def encodeChunk (s : Sender cr) (payload : Str) : Str × Sender cr :=
  if payload = [] then s.frame [] [] else frames next s (pieces (maxPayload - 1) payload)

end Sender

instance instChunkEncoder : ChunkEncoder (Sender cr) where
  encodeChunk s payload := (.ok (s.encodeChunk payload).1, (s.encodeChunk payload).2)

section
variable {σ : Type} [Reader σ]

/-- The padding and the payload behind their lengths. -/
def decodePayload (a : Aead) (padLen payLen : Nat) :
    FailState Error (Receiver .v45 cr × σ) (Option Str) :=
  if payLen = 0 then pure none
  else if maxPayload < payLen ∨ maxPayload < padLen then throw errTooLarge
  else do
    let frame ← second (Reader.readFull (padLen + payLen + 16))
    let payload ← Receiver.openNext a (swapPadding (frame.take padLen) (frame.drop padLen)).2
    pure (some payload)

/-- What `DecodeChunk` makes of the bytes of a header. -/
def decodeFrom (a : Aead) (hc : Str) : FailState Error (Receiver .v45 cr × σ) (Option Str) := do
  let hdr ← Receiver.openNext a hc
  if hdr.length ≠ 7 ∨ hdr.headD 0 ≠ 4 then throw errBadHeader
  else decodePayload a (beNat ((hdr.drop 3).take 2)) (beNat ((hdr.drop 5).take 2))

def decodeChunk : FailState Error (Receiver .v45 cr × σ) (Option Str) := do
  let a ← Receiver.start
  let hc ← second (Reader.readFull 23)
  decodeFrom a hc

end

instance instChunkDecoder : ChunkDecoder (Receiver .v45 cr) where
  pkg := lit "snellv45"
  decodeChunk := decodeChunk

/-! ### In step -/

/-- The receiver has the cipher of the sender once the salt is sent, and will have it
before; both counters are the same. -/
structure Synced (s : Sender cr) (r : Receiver .v45 cr) : Prop where
  aes : r.chacha = false
  aead : r.aead = if s.saltSent then some s.aead else none
  key : s.saltSent = false → s.aead = cr.newAEAD false r.psk s.salt
  nonce : s.nonce = r.nonce

variable {s : Sender cr} {r : Receiver .v45 cr} {payload pad : Str}

lemma Synced.runs_start (h : Synced s r) {σ : Type} [LawfulReader σ] {t : σ} {rest : Str}
    {e : Error} (ht : Reader.source t = ⟨(if s.saltSent then [] else s.salt) ++ rest, e⟩) :
    ∃ t', Runs Receiver.start (r, t) (.ok s.aead) ({ r with aead := some s.aead }, t') ∧
      Reader.source t' = ⟨rest, e⟩ := by
  have haead := h.aead
  cases hsent : s.saltSent with
  | true =>
    rw [hsent, if_pos rfl] at ht haead
    refine ⟨t, ?_, ht⟩
    rw [← haead]
    exact runs_start_of_some haead
  | false =>
    rw [hsent, if_neg Bool.false_ne_true] at ht haead
    rw [h.key hsent, ← h.aes]
    exact runs_start_of_none haead s.length_salt ht

lemma header_fields {padLen payLen : Nat} (hpad : padLen ≤ maxPayload) (hpay : payLen ≤ maxPayload) :
    (Sender.header padLen payLen).length = 7 ∧ (Sender.header padLen payLen).headD 0 = 4 ∧
      beNat (((Sender.header padLen payLen).drop 3).take 2) = padLen ∧
      beNat (((Sender.header padLen payLen).drop 5).take 2) = payLen := by
  have hbytes : ∀ {n : Nat}, n ≤ maxPayload → beNat (putBE 2 n) = n := fun {n} hn => by
    rw [maxPayload] at hn
    rw [beNat_putBE, Nat.mod_eq_of_lt (by omega)]
  have h₁ : (Sender.header padLen payLen).drop 3 = putBE 2 padLen ++ putBE 2 payLen := by
    rw [Sender.header, append_assoc]
    rfl
  have h₂ : (Sender.header padLen payLen).drop 5 = putBE 2 payLen := by
    have hfront : ([4, 0, 0] ++ putBE 2 padLen : Str).length = 5 := by
      rw [length_append, length_putBE]
      rfl
    rw [Sender.header, ← hfront, drop_left]
  refine ⟨?_, rfl, ?_, ?_⟩
  · rw [Sender.header, length_append, length_append, length_putBE, length_putBE]
    rfl
  · rw [h₁, take_left' (length_putBE 2 _), hbytes hpad]
  · rw [h₂, take_of_length_le (length_putBE 2 _).le, hbytes hpay]

lemma Synced.runs_decodeFrom (h : Synced s r) {σ : Type} [LawfulReader σ] {t : σ}
    {padLen payLen : Nat} (hpad : padLen ≤ maxPayload) (hpay : payLen ≤ maxPayload)
    {x : Option Str} {c : Receiver .v45 cr × σ} (hrest : Runs (decodePayload s.aead padLen payLen)
      ({ r with aead := some s.aead, nonce := r.nonce + 1 }, t) (.ok x) c) :
    Runs (decodeFrom s.aead (cr.sealed s.aead s.nonce (Sender.header padLen payLen) []))
      ({ r with aead := some s.aead }, t) (.ok x) c := by
  obtain ⟨hlen, hhead, hpadLen, hpayLen⟩ := header_fields hpad hpay
  rw [h.nonce]
  refine Runs.bind runs_openNext ?_
  rw [if_neg (by rw [hlen, hhead]; decide), hpadLen, hpayLen]
  exact hrest

/-- **A frame is taken off**, whatever its padding is, and both counters have made the
same steps. -/
lemma takes_frame (h : Synced s r) (hne : payload ≠ []) (hlen : payload.length ≤ maxPayload)
    (hpad : pad.length ≤ maxPayload) :
    ∃ r', Takes r (s.frame payload pad).1 (some payload) r' ∧ Synced (s.frame payload pad).2 r' := by
  refine ⟨{ r with aead := some s.aead, nonce := r.nonce + 1 + 1 }, ?_, ?_⟩
  · intro σ _ t rest e ht
    have hx : (swapPadding pad (cr.sealed s.aead (s.nonce + 1) payload [])).1.length +
        (swapPadding pad (cr.sealed s.aead (s.nonce + 1) payload [])).2.length =
          pad.length + payload.length + 16 := by
      rw [length_fst_swapPadding, length_snd_swapPadding, length_sealed]
      omega
    have hunswap := swapPadding_swapPadding pad (cr.sealed s.aead (s.nonce + 1) payload [])
    have hfst := length_fst_swapPadding pad (cr.sealed s.aead (s.nonce + 1) payload [])
    rw [Sender.frame, if_neg hne] at ht
    dsimp only at ht
    rcases hswap : swapPadding pad (cr.sealed s.aead (s.nonce + 1) payload []) with ⟨pad', pc'⟩
    rw [hswap] at ht hx hunswap hfst
    rw [append_assoc, append_assoc, append_assoc, ← append_assoc pad'] at ht
    obtain ⟨t₁, hstart, ht₁⟩ := h.runs_start ht
    obtain ⟨t₂, hhdr, ht₂⟩ := Reader.exists_runs_readFull ht₁
    obtain ⟨t₃, hframe, ht₃⟩ := Reader.exists_runs_readFull ht₂
    rw [length_sealed, (header_fields hpad hlen).1] at hhdr
    rw [length_append, hx] at hframe
    refine ⟨t₃, hstart.bind ((hhdr.second _).bind (h.runs_decodeFrom hpad hlen ?_)), ht₃⟩
    rw [decodePayload, if_neg (mt length_eq_zero_iff.mp hne), if_neg (by omega)]
    refine (hframe.second _).bind ?_
    rw [← hfst, take_left, drop_left, hunswap]
    exact Runs.bind (h.nonce ▸ runs_openNext) runs_pure
  · rw [Sender.frame, if_neg hne]
    exact ⟨h.aes, rfl, fun hsent => absurd hsent Bool.noConfusion, congrArg (· + 1 + 1) h.nonce⟩

lemma takes_frame_nil (h : Synced s r) :
    ∃ r', Takes r (s.frame [] []).1 none r' ∧ Synced (s.frame [] []).2 r' := by
  refine ⟨{ r with aead := some s.aead, nonce := r.nonce + 1 }, ?_, ?_⟩
  · intro σ _ t rest e ht
    rw [Sender.frame, if_pos rfl] at ht
    dsimp only at ht
    rw [append_nil, append_assoc, length_nil] at ht
    obtain ⟨t₁, hstart, ht₁⟩ := h.runs_start ht
    obtain ⟨t₂, hhdr, ht₂⟩ := Reader.exists_runs_readFull ht₁
    rw [length_sealed, (header_fields (Nat.zero_le _) (Nat.zero_le _)).1] at hhdr
    refine ⟨t₂, hstart.bind ((hhdr.second _).bind
      (h.runs_decodeFrom (Nat.zero_le _) (Nat.zero_le _) ?_)), ht₂⟩
    rw [decodePayload, if_pos rfl]
    exact runs_pure
  · rw [Sender.frame, if_pos rfl]
    exact ⟨h.aes, rfl, fun hsent => absurd hsent Bool.noConfusion, congrArg (· + 1) h.nonce⟩

lemma synced_new {psk salt initialPad : Str} (hsalt : salt.length = 16)
    (hpad : initPadMin ≤ initialPad.length ∧ initialPad.length < initPadMin + initPadSpan) :
    Synced (Sender.new cr psk salt initialPad hsalt hpad) ⟨psk, false, none, 0⟩ :=
  ⟨rfl, rfl, fun _ => rfl, rfl⟩

lemma length_nextPad (s : Sender cr) :
    (if s.saltSent then [] else s.initialPad).length ≤ maxPayload := by
  have hpad := s.length_initialPad.2
  rw [initPadMin, initPadSpan] at hpad
  rw [maxPayload]
  split_ifs
  · exact Nat.zero_le _
  · omega

lemma takes_encodeChunk (h : Synced s r) (hne : payload ≠ []) :
    ∃ r', TakesAll r (s.encodeChunk payload).1 ((pieces (maxPayload - 1) payload).map some) r' ∧
      Synced (s.encodeChunk payload).2 r' := by
  rw [Sender.encodeChunk, if_neg hne]
  refine takesAll_frames (P := fun x => x ≠ [] ∧ x.length ≤ maxPayload) ?_ h fun x hx => ?_
  · intro s r x hs hx
    exact takes_frame hs hx.1 hx.2 (length_nextPad s)
  · exact mem_pieces hx

/-- **The versions 4 and 5 stay in step.** -/
lemma lockstep : Lockstep (@Synced cr) where
  write {s r p} h hp := by
    obtain ⟨r', htakes, hs'⟩ := takes_encodeChunk h hp
    refine ⟨_, _, _, r', rfl, flatten_pieces _ p, fun x hx => (mem_pieces hx).1, fun hlen => ?_,
      htakes, hs'⟩
    rw [pieces_of_ne_nil _ hp]
    refine ⟨_, _, rfl, ?_⟩
    rw [length_take, maxPayload]
    omega
  close {s r} h := by
    obtain ⟨r', htakes, hs'⟩ := takes_frame_nil h
    exact ⟨_, _, r', rfl, htakes, hs'⟩
  ended _ _ _ _ _ ht := runs_start_end ht (by decide)

end Ntr.Snell.V45
