/-
The streams of Snell below version 6 (`snellv45`, `snellv123`): what one end writes the
other one reads.

* `chunkStreams_roundTrip`: from the start on both ends stay in step, chunk by chunk, and
  each reads what the other wrote and the end of the stream behind it.
-/
import Ntr.Snell.V123
import Ntr.Snell.V45

namespace Ntr.Snell

open Go

/-- **Chunk streams round trip.** Of the versions 4 and 5, and then of 1 to 3: new ends
of one key are in step; ends in step have the same counter, and are in step again
behind every chunk; and what was written at one of them, with the end of the stream
behind it or not, is read at the other one. The swap of the padding and the sealed
payload is undone by itself, for all lengths. -/
theorem chunkStreams_roundTrip (cr : Crypto) : ((∀ psk salt initialPad hsalt hpad,
        V45.Synced (V45.Sender.new cr psk salt initialPad hsalt hpad) ⟨psk, false, none, 0⟩) ∧
      (∀ s r, @V45.Synced cr s r → s.nonce = r.nonce ∧
        (∀ payload pad, payload ≠ [] → payload.length ≤ V45.maxPayload →
          pad.length ≤ V45.maxPayload → ∃ r', Takes r (s.frame payload pad).1 (some payload) r' ∧
            V45.Synced (s.frame payload pad).2 r') ∧
        ∃ r', Takes r (s.frame [] []).1 none r' ∧ V45.Synced (s.frame [] []).2 r') ∧
      RoundTrips (V45.Sender cr) (Receiver .v45 cr) V45.Synced ∧
      ∀ pad pc, V45.swapPadding (V45.swapPadding pad pc).1 (V45.swapPadding pad pc).2 = (pad, pc)) ∧
    (∀ psk chacha salt hsalt,
        @V123.Synced cr ⟨psk, chacha, none, 0, salt, hsalt⟩ ⟨psk, chacha, none, 0⟩) ∧
      (∀ s r, @V123.Synced cr s r → s.nonce = r.nonce ∧ ∀ x, x.length ≤ V123.ssPayloadMask → ∃ r',
          Takes r (s.chunk x).1 (if x = [] then none else some x) r' ∧
            V123.Synced (s.chunk x).2 r') ∧
      RoundTrips (V123.SenderSS cr) (V123.ReceiverSS cr) V123.Synced := by
  refine ⟨⟨?_, ?_, V45.lockstep.roundTrips, V45.swapPadding_swapPadding⟩, ?_, ?_,
    V123.lockstep.roundTrips⟩
  · exact fun psk salt initialPad hsalt hpad => V45.synced_new hsalt hpad
  · exact fun s r h => ⟨h.nonce, fun payload pad hne hlen hpad => V45.takes_frame h hne hlen hpad,
      V45.takes_frame_nil h⟩
  · exact fun psk chacha salt hsalt => V123.synced_start hsalt
  · exact fun s r h => ⟨h.nonce, fun x hx => V123.takes_chunk h hx⟩

def cipherTag (chacha : Bool) : Str := (if chacha then 1 else 0) :: List.replicate 15 0

lemma length_cipherTag (chacha : Bool) : (cipherTag chacha).length = 16 := rfl

def tagCrypto : Crypto where
  sessionKey psk salt := psk ++ salt
  sealWith chacha _ _ p _ := p ++ cipherTag chacha
  openWith chacha _ _ c _ :=
    if c.drop (c.length - 16) = cipherTag chacha then some (c.take (c.length - 16)) else none
  length_sealWith chacha _ _ p _ := by rw [List.length_append, length_cipherTag]
  open_sealWith chacha _ _ p _ := by
    rw [List.length_append, length_cipherTag, Nat.add_sub_cancel, List.drop_left, if_pos rfl,
      List.take_left]

lemma length_demoPad : V45.initPadMin ≤ (List.replicate 300 9 : Str).length ∧
    (List.replicate 300 9 : Str).length < V45.initPadMin + V45.initPadSpan := by
  rw [List.length_replicate, V45.initPadMin, V45.initPadSpan]
  omega

def newSender : V45.Sender tagCrypto :=
  V45.Sender.new tagCrypto [1, 2] (List.replicate 16 7) (List.replicate 300 9)
    List.length_replicate length_demoPad

theorem chunkStreams_roundTrip_newSender :
    ∃ w s₁ c s₂ xs r', writes clientWrite newSender [[1], [2, 3]] = (.ok w, s₁) ∧
      closeWrite s₁ true = (.ok c, s₂) ∧ TakesAll ⟨[1, 2], false, none, 0⟩ (w ++ c) xs r' ∧
      V45.Synced s₂ r' ∧ ∀ {σ : Type} [LawfulReader σ] {t : σ} {rest : Str} {e : Error},
        Reader.source t = ⟨w ++ (c ++ rest), e⟩ → ∀ rbuf : Str,
          ReadsTo (ServerConn.mk rbuf ((⟨[1, 2], false, none, 0⟩ : Receiver .v45 tagCrypto), t))
            (rbuf ++ [1, 2, 3]) .eof := by
  obtain ⟨⟨hnew, -, htrip, -⟩, -⟩ := chunkStreams_roundTrip tagCrypto
  have hps : ∀ p ∈ [[1], [2, 3]], p ≠ ([] : Str) := by decide
  exact (htrip (hnew _ _ _ _ _) hps true).1

end Ntr.Snell
