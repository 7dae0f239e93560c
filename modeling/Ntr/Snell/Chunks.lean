/-
Chunks of Snell. Every version puts the bytes of a connection into chunks, which the
other end takes off one by one (`chunkEncoder` and `chunkDecoder` of
`snellv6/server.go`); what differs is how a chunk looks.

* `takesAll_frames`: the pieces of a write, one behind the other, are taken off.
-/
import Ntr.Go.Reader
import Ntr.Lib.Pieces

namespace Ntr.Snell

open Go Reader
open Lib Lib.FailState

abbrev Nonce := BitVec 96

/-- The key derivation (Argon2id) and the ciphers, AES-128-GCM and ChaCha20-Poly1305:
`Open` inverts `Seal` under the same key, nonce and associated data. -/
structure Crypto where
  sessionKey : Str → Str → Str
  sealWith : Bool → Str → Nonce → Str → Str → Str
  openWith : Bool → Str → Nonce → Str → Str → Option Str
  length_sealWith : ∀ chacha key n p ad, (sealWith chacha key n p ad).length = p.length + 16
  open_sealWith : ∀ chacha key n p ad,
    openWith chacha key n (sealWith chacha key n p ad) ad = some p

/-- A `cipher.AEAD`, by the choice of the cipher and the key material. -/
structure Aead where
  chacha : Bool
  key : Str
  deriving DecidableEq

/-- `NewAEAD` on the session key. -/
def Crypto.newAEAD (cr : Crypto) (chacha : Bool) (psk salt : Str) : Aead :=
  ⟨chacha, cr.sessionKey psk salt⟩

def Crypto.sealed (cr : Crypto) (a : Aead) (n : Nonce) (p ad : Str) : Str :=
  cr.sealWith a.chacha a.key n p ad

def errOpen : Error := .text (lit "cipher: message authentication failed")

/-- `Open`. -/
def Crypto.opened (cr : Crypto) (a : Aead) (n : Nonce) (c ad : Str) : Except Error Str :=
  match cr.openWith a.chacha a.key n c ad with
  | some p => .ok p
  | none => .error errOpen

section
variable {cr : Crypto} {a : Aead} {n : Nonce} {p ad : Str}

@[simp]
lemma length_sealed : (cr.sealed a n p ad).length = p.length + 16 :=
  cr.length_sealWith _ _ _ _ _

@[simp]
lemma opened_sealed : cr.opened a n (cr.sealed a n p ad) ad = .ok p := by
  rw [Crypto.opened, Crypto.sealed, cr.open_sealWith]

end

/-! ### Taking chunks off -/

/-- `chunkDecoder`. A chunk without bytes may come as `nil`. -/
class ChunkDecoder (ρ : Type) where
  /-- what the errors of its package start with -/
  pkg : Str
  decodeChunk : {σ : Type} → [Reader σ] → FailState Error (ρ × σ) (Option Str)

section
variable {ρ : Type} [ChunkDecoder ρ] {σ : Type}

/-- The receiver takes the chunk off the front of whatever the connection brings, and
leaves the rest. -/
def Takes (r : ρ) (wire : Str) (x : Option Str) (r' : ρ) : Prop :=
  ∀ {σ : Type} [LawfulReader σ] {t : σ} {rest : Str} {e : Error}, source t = ⟨wire ++ rest, e⟩ →
      ∃ t', Runs ChunkDecoder.decodeChunk (r, t) (.ok x) (r', t') ∧ source t' = ⟨rest, e⟩

/-- The receiver takes chunks off, one behind the other. -/
inductive TakesAll : ρ → Str → List (Option Str) → ρ → Prop
  | nil (r : ρ) : TakesAll r [] [] r
  | cons {r r₁ r₂ : ρ} {w ws : Str} {x : Option Str} {xs : List (Option Str)} :
      Takes r w x r₁ → TakesAll r₁ ws xs r₂ → TakesAll r (w ++ ws) (x :: xs) r₂

lemma TakesAll.append {r r₁ r₂ : ρ} {w ws : Str} {xs ys : List (Option Str)}
    (h : TakesAll r w xs r₁) (h' : TakesAll r₁ ws ys r₂) : TakesAll r (w ++ ws) (xs ++ ys) r₂ := by
  induction h with
  | nil => exact h'
  | cons hx _ ih =>
    rw [List.append_assoc, List.cons_append]
    exact .cons hx (ih h')

lemma Takes.all {r r' : ρ} {w : Str} {x : Option Str} (h : Takes r w x r') :
    TakesAll r w [x] r' := by
  have hall := TakesAll.cons h (.nil r')
  rwa [List.append_nil] at hall

end

/-! ### Sending pieces -/

/-- `chunkEncoder`. -/
class ChunkEncoder (S : Type) where
  encodeChunk : S → Str → Except Error Str × S

section
variable {S ρ : Type} {frame : S → Str → Str × S} [ChunkDecoder ρ]

/-- **Lockstep**: where both ends are in step again behind every chunk, they are
behind all of them. -/
lemma takesAll_frames {Synced : S → ρ → Prop} {P : Str → Prop} {chunk : Str → Option Str}
    (hframe : ∀ {s r x}, Synced s r → P x →
      ∃ r', Takes r (frame s x).1 (chunk x) r' ∧ Synced (frame s x).2 r')
    {s : S} {r : ρ} (h : Synced s r) {xs : List Str} (hxs : ∀ x ∈ xs, P x) :
    ∃ r', TakesAll r (frames frame s xs).1 (xs.map chunk) r' ∧ Synced (frames frame s xs).2 r' := by
  induction xs generalizing s r with
  | nil => exact ⟨r, .nil r, h⟩
  | cons x xs ih =>
    obtain ⟨r₁, hx, h₁⟩ := hframe h (hxs x List.mem_cons_self)
    obtain ⟨r₂, hall, h₂⟩ := ih h₁ fun y hy => hxs y (List.mem_cons_of_mem _ hy)
    exact ⟨r₂, .cons hx hall, h₂⟩

end

/-! ### One end of a direction -/

/-- The two ways to put chunks together below version 6. -/
inductive Framing where
  | ss
  | v45

/-- The receiving end of a direction: its key, once the salt is known, and its
counter. -/
structure Receiver (v : Framing) (cr : Crypto) where
  psk : Str
  chacha : Bool
  aead : Option Aead := none
  nonce : Nonce := 0

namespace Receiver

variable {v : Framing} {cr : Crypto} {σ : Type} [Reader σ]

def start : FailState Error (Receiver v cr × σ) Aead := do
  let r ← step fun c => (c.1, c)
  match r.aead with
  | some a => pure a
  | none => do
    let salt ← second (readFull 16)
    step fun c =>
      (cr.newAEAD r.chacha r.psk salt,
        { c.1 with aead := some (cr.newAEAD r.chacha r.psk salt) }, c.2)

/-- `Open` under the next nonce, which is used up also where it fails. -/
def openNext (a : Aead) (c : Str) : FailState Error (Receiver v cr × σ) Str :=
  ExceptT.mk fun s => (cr.opened a s.1.nonce c [], { s.1 with nonce := s.1.nonce + 1 }, s.2)

end Receiver

section
variable {v : Framing} {cr : Crypto} {σ : Type} {r : Receiver v cr}

lemma runs_openNext [Reader σ] {a : Aead} {t : σ} {p : Str} :
    Runs (Receiver.openNext a (cr.sealed a r.nonce p [])) (r, t) (.ok p)
      ({ r with nonce := r.nonce + 1 }, t) :=
  ⟨opened_sealed, rfl⟩

lemma runs_self {ρ : Type} {r : ρ} {t : σ} :
    Runs (step fun c => (c.1, c) : FailState Error (ρ × σ) ρ) (r, t) (.ok r) (r, t) :=
  ⟨rfl, rfl⟩

variable [LawfulReader σ] {t : σ} {e : Error}

lemma runs_start_of_some {a : Aead} (ha : r.aead = some a) :
    Runs Receiver.start (r, t) (.ok a) (r, t) := by
  refine runs_self.bind ?_
  rw [ha]
  exact runs_pure

lemma runs_start_of_none (ha : r.aead = none) {salt rest : Str} (hsalt : salt.length = 16)
    (ht : source t = ⟨salt ++ rest, e⟩) :
    ∃ t', Runs Receiver.start (r, t) (.ok (cr.newAEAD r.chacha r.psk salt))
      ({ r with aead := some (cr.newAEAD r.chacha r.psk salt) }, t') ∧ source t' = ⟨rest, e⟩ := by
  obtain ⟨t', hread, ht'⟩ := exists_runs_readFull ht
  rw [hsalt] at hread
  refine ⟨t', ?_, ht'⟩
  refine runs_self.bind ?_
  rw [ha]
  exact (hread.second r).bind runs_step

/-- Nothing is to come: the salt, or the first `n` bytes of a chunk, are not there. -/
lemma runs_start_end (ht : Reader.source t = ⟨[], e⟩) {α : Type} {n : Nat} (hn : 0 < n)
    {k : Aead → Str → FailState Error (Receiver v cr × σ) α} :
    ∃ c, Runs (do let a ← Receiver.start; let b ← second (Reader.readFull n); k a b) (r, t)
      (.error e) c := by
  cases ha : r.aead with
  | some a =>
    obtain ⟨t', hread⟩ := runs_readFull_end ht hn
    exact ⟨_, (runs_start_of_some ha).bind (hread.second r).bind_error⟩
  | none =>
    obtain ⟨t', hread⟩ := runs_readFull_end ht (n := 16) (by decide)
    refine ⟨(r, t'), Runs.bind_error (runs_self.bind ?_)⟩
    rw [ha]
    exact (hread.second r).bind_error

end

end Ntr.Snell
