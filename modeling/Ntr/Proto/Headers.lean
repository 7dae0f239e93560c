/-
The destinations that the client headers of VLESS, Trojan and Snell carry.

* `Vless.NoSpill`, `Trojan.NoSpill`, `Snell.NoSpill`: the writer fails, or the parser of
  the server has the destination and leaves the payload, whatever payload follows and
  however the bytes come in;
* `destination_recovered_iff`: the server has the destination exactly for the hosts that
  fit the one byte of their length (and, for VLESS and Trojan, have no zone), or that
  VLESS rejects as too long for its buffer. None of the writers looks at the length.
-/
import Ntr.Proto.Vless
import Ntr.Proto.Trojan
import Ntr.Snell.Command

namespace Ntr.Proto

open Go Lib Lib.FailState List

/-- From every connection that brings the header and a payload, the parser has the
destination and leaves the payload. -/
def Recovers {α : Type} (parse : FailState Error Stream α) (dst : α → Socksaddr) (header : Str)
    (d : Socksaddr) : Prop :=
  ∀ (payload : Str) (s : Stream), s.bytes = header ++ payload →
    Succeeds parse s fun a s' => dst a = d ∧ s'.bytes = payload

lemma recovers_iff {α : Type} {parse : FailState Error Stream α}
    {parse' : FailState Error Source α} (h : Simulates Reader.source parse parse')
    {dst : α → Socksaddr} {header : Str} {d : Socksaddr} :
    Recovers parse dst header d ↔ ∀ (payload : Str) (s : Source), s.bytes = header ++ payload →
      Succeeds parse' s fun a s' => dst a = d ∧ s'.bytes = payload := by
  constructor
  · intro hrec payload s hs
    -- the whole in one segment
    let t : Stream := { segments := [s.bytes], readErr := s.err }
    have htb : t.bytes = s.bytes := by simp [t, Stream.bytes]
    have ht : Reader.source t = s := congrArg (fun b => (⟨b, s.err⟩ : Source)) htb
    have hsucc := hrec payload t (htb.trans hs)
    rw [← ht]
    exact h.succeeds_iff.mp hsucc
  · intro hrec payload s hs
    exact h.succeeds_iff.mpr (hrec payload (Reader.source s) hs)

/-! ### VLESS -/

namespace Vless

/-- The client fails, or both parsers of the header have the destination and leave
the payload. -/
def NoSpill (key : Str) (d : Socksaddr) : Prop :=
  ∀ header, clientRequest key d = .ok header →
    Recovers readRequestHeader RequestHeader.target header d ∧
      ∀ payload, ∃ h, decode (header ++ payload) = .ok (h, payload) ∧ h.target = d

variable {key : Str} {d : Socksaddr}

def clientHeader (key : Str) (d : Socksaddr) : RequestHeader :=
  ⟨key, [], if isCarrier d then cmdMux else cmdTCP, d⟩

lemma isCarrier_iff (hd : Proper d) : isCarrier d = true ↔ d = carrier := by
  constructor
  · intro h
    simp only [isCarrier, Bool.and_eq_true, beq_iff_eq] at h
    obtain ⟨⟨hdom, hname⟩, hport⟩ := h
    have haddr : d.addr = .zero := by
      rcases hd with ⟨-, ha⟩ | ⟨hf, -⟩
      · exact ha
      · simp [Socksaddr.isFqdn, hf] at hdom
    obtain ⟨a, name, port⟩ := d
    simp only at haddr hname hport
    rw [haddr, hname, hport]
    rfl
  · rintro rfl
    decide +kernel

lemma fitsWire_carrier : FitsWire carrier := ⟨by decide +kernel, fun _ _ h => (by cases h)⟩

lemma length_hostParts (hd : Proper d) : (hostParts d).flatten.length = 1 + d.fqdn.length ∨
    d.fqdn = [] ∧ (hostParts d).flatten.length ≤ 16 := by
  rcases hd with ⟨hf, -⟩ | ⟨hf, ha⟩
  · have hdom : d.isFqdn = true := by simpa [Socksaddr.isFqdn] using hf
    rw [hostParts, if_pos hdom]
    left
    simp
    omega
  · have hdom : ¬ d.isFqdn = true := by simp [Socksaddr.isFqdn, hf]
    rw [hostParts, if_neg hdom]
    right
    cases haddr : d.addr with
    | zero => rw [haddr] at ha; cases ha
    | v4 a => simp [hf, length_putBE]
    | v6 a zone => simp [hf, as16, length_putBE]

/-- The client's header fits the buffer, unless it has a very long domain. -/
lemma length_clientHeader_le_iff (hkey : key.length = 16) (hd : Proper d) :
    (headerParts (clientHeader key d)).flatten.length ≤ room ↔ d.fqdn.length ≤ 32233 := by
  rw [flatten_headerParts, addrBytes, clientHeader, room]
  by_cases hc : isCarrier d = true
  · have hfit : d.fqdn.length ≤ 255 := by
      rw [(isCarrier_iff hd).mp hc]
      exact fitsWire_carrier.1
    rw [if_pos hc, if_neg (show ¬ hasAddr cmdMux = true by decide)]
    simp only [length_append, length_cons, length_nil, hkey]
    omega
  · rw [if_neg hc, if_pos (show hasAddr cmdTCP = true by decide), flatten_addrPortParts]
    simp only [length_append, length_cons, length_nil, hkey, length_putBE]
    rcases length_hostParts hd with hlen | ⟨hf, hlen⟩
    · omega
    · rw [hf, length_nil]
      omega

lemma clientRequest_eq (hkey : key.length = 16) : clientRequest key d =
    if (headerParts (clientHeader key d)).flatten.length ≤ room
    then .ok (headerParts (clientHeader key d)).flatten else .error errShortBuffer := by
  have hroom : ([] : Str).length ≤ room := Nat.zero_le _
  rw [clientRequest, if_neg (not_not.mpr hkey), encode, bufWrites_eq _ hroom, length_nil,
    Nat.zero_add, nil_append]
  rfl

/-- What the server has of the client's header is the destination, with nothing
left of it, exactly when the host fits. -/
lemma wireHeader_clientHeader (hd : Proper d) :
    (wireHeader (clientHeader key d)).target = d ↔ FitsWire d := by
  by_cases hc : isCarrier d = true
  · have hcar := (isCarrier_iff hd).mp hc
    have htarget : (wireHeader (clientHeader key d)).target = carrier := by
      rw [RequestHeader.target, wireHeader, clientHeader, if_pos hc]
      rfl
    rw [htarget, hcar]
    exact ⟨fun _ => fitsWire_carrier, fun _ => rfl⟩
  · have htarget : (wireHeader (clientHeader key d)).target = wireDst d := by
      rw [RequestHeader.target, wireHeader, clientHeader, if_neg hc]
      rfl
    rw [htarget, ← wireHost_eq_iff hd, wireDst]
    constructor
    · intro h
      exact Prod.ext (congrArg Socksaddr.addr h) (congrArg Socksaddr.fqdn h)
    · intro h
      rw [h]

lemma headerSpill_clientHeader (h : FitsWire d) : headerSpill (clientHeader key d) = [] := by
  rw [headerSpill, clientHeader, spill_eq_nil h, ite_self]

lemma noSpill_iff (hd : Proper d) :
    NoSpill key d ↔ key.length ≠ 16 ∨ 32233 < d.fqdn.length ∨ FitsWire d := by
  by_cases hkey : key.length = 16
  · have hadd : (clientHeader key d).addons.length ≤ 255 := Nat.zero_le _
    rw [NoSpill, clientRequest_eq hkey, if_congr (length_clientHeader_le_iff hkey hd) rfl rfl]
    by_cases hlen : d.fqdn.length ≤ 32233
    · rw [if_pos hlen]
      constructor
      · intro h
        obtain ⟨hrec, -⟩ := h _ rfl
        rw [recovers_iff simulates_readRequestHeader] at hrec
        have hsucc := hrec [] ⟨_, .eof⟩ rfl
        rw [(runs_readRequestHeader hkey hadd rfl).succeeds_iff] at hsucc
        exact .inr (.inr ((wireHeader_clientHeader hd).mp hsucc.1))
      · rintro (h | h | h)
        · exact absurd hkey h
        · omega
        · rintro header ⟨⟩
          have hdst : (wireHeader (clientHeader key d)).target = d :=
            (wireHeader_clientHeader hd).mpr h
          refine ⟨?_, fun payload => ⟨_, ?_, hdst⟩⟩
          · rw [recovers_iff simulates_readRequestHeader]
            intro payload s hs
            rw [(runs_readRequestHeader hkey hadd hs).succeeds_iff, headerSpill_clientHeader h]
            exact ⟨hdst, rfl⟩
          · rw [decode_eq hkey hadd, headerSpill_clientHeader h, nil_append]
    · rw [if_neg hlen]
      exact ⟨fun _ => .inr (.inl (by omega)), fun _ _ h => (by cases h)⟩
  · refine ⟨fun _ => .inl hkey, fun _ header h => ?_⟩
    rw [clientRequest, if_pos hkey] at h
    cases h

end Vless

/-! ### Trojan -/

namespace Trojan

/-- The server has the destination and leaves the payload; the client does not
fail. -/
def NoSpill (H : Sha224) (password : Str) (d : Socksaddr) : Prop :=
  Recovers readHeader (fun r => r.2.2) (clientHeader H password d) d

lemma noSpill_iff {H : Sha224} {password : Str} {d : Socksaddr} (hd : Proper d) :
    NoSpill H password d ↔ FitsWire d := by
  rw [NoSpill, recovers_iff simulates_readHeader]
  constructor
  · intro h
    exact (succeeds_readHeader_iff hd rfl).mp (h [] ⟨_, .eof⟩ rfl)
  · intro h payload s hs
    exact (succeeds_readHeader_iff hd hs).mpr h

end Trojan

end Ntr.Proto

/-! ### Snell -/

namespace Ntr.Snell

open Go

/-- The server has the host and the port and leaves the payload, however the request
is cut into chunks; the client does not fail over the host. -/
def NoSpill (host : Str) (port : UInt16) : Prop :=
  ∀ (payload : Str) (chunks : List Str), chunks.flatten = dialCommand host port payload →
    ∃ h left cs, readCommand false [] chunks = .ok (h, left, cs) ∧
      h.host = host ∧ h.port = port ∧ left ++ cs.flatten = payload

lemma noSpill_iff {host : Str} {port : UInt16} : NoSpill host port ↔ host.length ≤ 255 := by
  constructor
  · intro h
    have hone : [dialCommand host port []].flatten = dialCommand host port [] :=
      List.flatten_singleton
    obtain ⟨hdr, left, cs, hread, hhost, -⟩ := h [] _ hone
    obtain ⟨left', cs', hread', -⟩ := readCommand_dialCommand hone
    rw [hread] at hread'
    obtain ⟨rfl, -⟩ := Prod.mk.inj (Except.ok.inj hread')
    exact connectHeader_host_eq_iff.mp hhost
  · intro hlen payload chunks hw
    obtain ⟨left, cs, hread, hleft⟩ := readCommand_dialCommand hw
    refine ⟨_, left, cs, hread, connectHeader_host_eq_iff.mpr hlen, connectHeader_port hlen, ?_⟩
    rw [hleft, Nat.mod_eq_of_lt (by omega)]
    have hhead : (host ++ putBE 2 port.toNat).length = host.length + 2 := by
      rw [List.length_append, length_putBE]
    rw [← hhead, List.drop_left]

end Ntr.Snell

namespace Ntr.Proto

open Go

/-! ### The three together -/

/-- **No destination spills into the stream, except for long names and zones.**
VLESS, Trojan and Snell write the length of the host into one byte without a look at
it. -/
theorem destination_recovered_iff (key : Str) (H : Trojan.Sha224) (password : Str) {d : Socksaddr}
    (hd : Proper d) : (Vless.NoSpill key d ↔ key.length ≠ 16 ∨ 32233 < d.fqdn.length ∨ FitsWire d) ∧
      (Trojan.NoSpill H password d ↔ FitsWire d) ∧
      (Snell.NoSpill d.host d.port ↔ d.host.length ≤ 255) :=
  ⟨Vless.noSpill_iff hd, Trojan.noSpill_iff hd, Snell.noSpill_iff⟩

def zeroDigest : Trojan.Sha224 := ⟨fun _ => List.replicate 28 0, fun _ => rfl⟩

/-- A domain of `n` letters at port `443`. -/
def longName (n : Nat) : Socksaddr := .fromFqdn (List.replicate n 0x61) 443

theorem destination_recovered_short : Vless.NoSpill (List.replicate 16 7) (longName 9) ∧
    Trojan.NoSpill zeroDigest (lit "password") (longName 9) ∧
    Snell.NoSpill (longName 9).host (longName 9).port := by
  have hd : Proper (longName 9) := .inl ⟨by decide, rfl⟩
  have hfit : FitsWire (longName 9) := ⟨by decide, fun _ _ h => (by cases h)⟩
  obtain ⟨hvless, htrojan, hsnell⟩ :=
    destination_recovered_iff (List.replicate 16 7) zeroDigest (lit "password") hd
  exact ⟨hvless.mpr (.inr (.inr hfit)), htrojan.mpr hfit, hsnell.mpr (by decide)⟩

/-- A domain of `256` bytes has the length byte `0`: the server reads the empty
domain, and the name is the first of the payload. -/
theorem longName_spills : ¬ Vless.NoSpill (List.replicate 16 7) (longName 256) ∧
    ¬ Trojan.NoSpill zeroDigest (lit "password") (longName 256) ∧
    ¬ Snell.NoSpill (longName 256).host (longName 256).port := by
  have hd : Proper (longName 256) := .inl ⟨by decide, rfl⟩
  have hlen : (longName 256).fqdn.length = 256 := List.length_replicate
  have hfit : ¬ FitsWire (longName 256) := fun h => absurd h.1 (by rw [hlen]; decide)
  refine ⟨?_, ?_, ?_⟩
  · rw [Vless.noSpill_iff hd, hlen]
    rintro (h | h | h)
    · exact h (by decide)
    · exact absurd h (by decide)
    · exact hfit h
  · rw [Trojan.noSpill_iff hd]
    exact hfit
  · rw [Snell.noSpill_iff]
    decide +kernel

end Ntr.Proto
