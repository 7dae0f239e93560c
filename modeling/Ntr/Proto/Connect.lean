/-
The client of the HTTP proxy protocol: `ClientHandshake` of `proto/httpproxy`.

* `IsConnect b dst`: by the message syntax of HTTP/1.1 the bytes are one CONNECT request
  for that destination, with nothing behind it;
* `oneRequest_iff`: one request is written for a domain if and only if the domain is not
  empty and has neither white space, control characters nor brackets. Nothing looks at
  the domain on its way from the SOCKS inbound.
-/
import Ntr.Go.Message
import Ntr.Proto.Socks

namespace Ntr.Proto

open Go Lib Lib.FailState

namespace HttpProxy

variable {σ : Type} [Channel σ]

/-- The line with the credentials for the upstream proxy, where there are any. -/
def authLine (key : Str) : Str :=
  if 0 < key.length then lit "Proxy-Authorization: Basic " ++ encodeToString key ++ lit "\r\n"
  else []

def connectRequest (key : Str) (dst : Socksaddr) : Str :=
  lit "CONNECT " ++ dst.string ++ lit " HTTP/1.1\r\nHost: " ++ dst.string ++ lit "\r\n" ++
    authLine key ++ lit "\r\n"

/-- The part of `ClientHandshake` behind the write. The parameter is
`http.ReadResponse` for a CONNECT: the status code and the status line of the
answer. -/
def readAnswer (readResponse : Str → Error → Except Error ((Nat × Str) × Nat)) :
    FailState Error σ Unit := do
  newReader
  let resp ← Channel.parse readResponse
  if resp.1 ≠ 200 then throw (.text (lit "httpproxy: 上游 CONNECT 回 " ++ resp.2))
  else pure ()

def clientHandshake (readResponse : Str → Error → Except Error ((Nat × Str) × Nat)) (key : Str)
    (dst : Socksaddr) : FailState Error σ Unit := do
  write (connectRequest key dst)
  readAnswer readResponse

end HttpProxy

/-! ### What is written -/

section
variable {readResponse : Str → Error → Except Error ((Nat × Str) × Nat)} {key : Str}
  {dst : Socksaddr} {s : Stream}

open HttpProxy

lemma sent_readAnswer (s : Stream) : (after (readAnswer readResponse) s).sent = s.sent := by
  have hsim : Simulates Stream.tape (readAnswer readResponse) (readAnswer readResponse) :=
    simulates_newReader.bind fun _ => (simulates_parse _).bind fun _ => .ite (.throw _) (.pure _)
  have htape : (after (readAnswer readResponse) s.tape).sent = s.tape.sent := by
    have hparse : ∀ t : Tape, (after (Channel.parse readResponse) t).sent = t.sent := by
      intro t
      simp only [after, Channel.parse, ExceptT.run_mk, StateT.run]
      cases readResponse t.bytes t.readErr <;> rfl
    rw [readAnswer, after_bind]
    change (after (Channel.parse readResponse >>= _) s.tape).sent = _
    rw [after_bind]
    cases outcome (Channel.parse readResponse) s.tape with
    | error e => exact hparse s.tape
    | ok resp =>
      dsimp only
      split <;> exact hparse s.tape
  exact (congrArg Tape.sent (hsim s).2).trans htape

variable (readResponse key dst) in
lemma sent_clientHandshake (s : Stream) :
    (∃ e, s.writeErr 0 = some e ∧ outcome (clientHandshake readResponse key dst) s = .error e ∧
        (after (clientHandshake readResponse key dst) s).sent = s.sent) ∨
      s.writeErr 0 = none ∧ (after (clientHandshake readResponse key dst) s).sent =
        s.sent ++ [connectRequest key dst] := by
  cases h : s.writeErr 0 with
  | some e =>
    have hwrite : Runs (write (connectRequest key dst)) s (.error e)
        { s with writeErr := fun n => s.writeErr (n + 1) } := by
      change (s.write _).1 = _ ∧ (s.write _).2 = _
      simp [Stream.write, h]
    have hrun := hwrite.bind_error (k := fun _ => readAnswer readResponse)
    exact .inl ⟨e, rfl, hrun.1, by rw [clientHandshake, hrun.2]⟩
  | none =>
    have hwrite := Stream.runs_write (b := connectRequest key dst) h
    refine .inr ⟨rfl, ?_⟩
    rw [clientHandshake, after_bind, hwrite.1, hwrite.2]
    exact sent_readAnswer _

end

/-! ### One request -/

/-- The bytes are one CONNECT request, its target and its one `Host` field are
the destination, and nothing stands behind it. -/
def IsConnect (b : Str) (dst : Socksaddr) : Prop :=
  ∃ h : Head, readHead b = some (h, []) ∧ h.method = lit "CONNECT" ∧
    splitHostPort h.target = .ok (dst.fqdn, itoa dst.port.toNat) ∧
    ∃ f : Str × Str, h.fields.filter (fun f => equalFold f.1 (lit "Host")) = [f] ∧
      splitHostPort f.2 = .ok (dst.fqdn, itoa dst.port.toNat)

/-- **One request for the destination or none**: on every connection the
handshake fails without having sent anything, or what it sends is one CONNECT
request for that destination. -/
def OneRequest (readResponse : Str → Error → Except Error ((Nat × Str) × Nat)) (key : Str)
    (dst : Socksaddr) : Prop :=
  ∀ s : Stream, (∃ e, outcome (HttpProxy.clientHandshake readResponse key dst) s = .error e ∧
      (after (HttpProxy.clientHandshake readResponse key dst) s).sent = s.sent) ∨
    ∃ b, (after (HttpProxy.clientHandshake readResponse key dst) s).sent = s.sent ++ [b] ∧
      IsConnect b dst

section
variable {readResponse : Str → Error → Except Error ((Nat × Str) × Nat)} {key domain : Str}
  {port : UInt16}

lemma oneRequest_iff_isConnect {dst : Socksaddr} :
    OneRequest readResponse key dst ↔ IsConnect (HttpProxy.connectRequest key dst) dst := by
  constructor
  · intro h
    let s : Stream := { segments := [] }
    rcases sent_clientHandshake readResponse key dst s with
      ⟨e, hnone, -⟩ | ⟨-, hsent⟩
    · cases hnone
    · rcases h s with ⟨e, -, hsame⟩ | ⟨b, hb, hconn⟩
      · rw [hsent] at hsame
        exact absurd hsame (by simp)
      · rw [hsent, List.append_cancel_left_eq] at hb
        rw [(List.cons.inj hb).1]
        exact hconn
  · intro h s
    rcases sent_clientHandshake readResponse key dst s with
      ⟨e, -, hout, hsent⟩ | ⟨-, hsent⟩
    · exact .inl ⟨e, hout, hsent⟩
    · exact .inr ⟨_, hsent, h⟩

/-- The domain is not empty, and has neither white space, control characters nor
brackets. -/
def PlainDomain (domain : Str) : Prop :=
  domain ≠ [] ∧ ∀ c ∈ domain, visible c = true ∧ c ≠ 0x5B ∧ c ≠ 0x5D

lemma connectRequest_eq (key : Str) (dst : Socksaddr) : HttpProxy.connectRequest key dst =
    (lit "CONNECT" ++ 0x20 :: (dst.string ++ 0x20 :: lit "HTTP/1.1")) ++ crlf ++
      ((lit "Host" ++ 0x3A :: 0x20 :: dst.string) ++ crlf ++
        (HttpProxy.authLine key ++ crlf)) := by
  have h₁ : lit "CONNECT " = lit "CONNECT" ++ [0x20] := by decide
  have h₂ : lit " HTTP/1.1\r\nHost: " =
      0x20 :: (lit "HTTP/1.1" ++ crlf ++ lit "Host" ++ [0x3A, 0x20]) := by decide
  have h₃ : lit "\r\n" = crlf := by decide
  rw [HttpProxy.connectRequest, h₁, h₂, h₃]
  simp

/-- The empty domain, which the SOCKS inbound takes, is written as the text of
an invalid address: two words. -/
lemma not_isConnect_nil : ¬ IsConnect (HttpProxy.connectRequest key (.fromFqdn [] port))
    (.fromFqdn [] port) := by
  rintro ⟨h, hread, -⟩
  have htext : (Socksaddr.fromFqdn [] port).string = lit "invalid AddrPort" := rfl
  have hline : readRequestLine
      (lit "CONNECT" ++ 0x20 :: (lit "invalid AddrPort" ++ 0x20 :: lit "HTTP/1.1")) = none := by
    decide
  rw [connectRequest_eq, htext, readHead, readLine_append (by decide)] at hread
  simp only [hline] at hread
  cases hread

/-- The line with the credentials is a field of its own, or there is none. -/
lemma readFields_authLine (key : Str) (k : Nat) :
    ∃ fs, readFields (k + 2) (HttpProxy.authLine key ++ crlf) = some (fs, []) ∧
      fs.filter (fun f => equalFold f.1 (lit "Host")) = [] := by
  by_cases hkey : 0 < key.length
  · have henc := visible_encodeToString key
    have henc' := encodeToString_ne_nil (List.length_pos_iff.mp hkey)
    have hline : HttpProxy.authLine key = (lit "Proxy-Authorization" ++ 0x3A :: 0x20 ::
        (lit "Basic" ++ 0x20 :: encodeToString key)) ++ crlf := by
      have h₁ : lit "Proxy-Authorization: Basic " =
          lit "Proxy-Authorization" ++ 0x3A :: 0x20 :: (lit "Basic" ++ [0x20]) := by decide
      rw [HttpProxy.authLine, if_pos hkey, h₁, show lit "\r\n" = crlf by decide]
      simp
    have hvalue : ∀ c ∈ lit "Basic" ++ 0x20 :: encodeToString key, visible c = true ∨ c = 0x20 := by
      intro c hc
      rcases List.mem_append.mp hc with h | h
      · exact .inl ((show Visible (lit "Basic") by decide +kernel) c h)
      · rcases List.mem_cons.mp h with h | h
        · exact .inr h
        · exact .inl (henc c h)
    have hfirst : (lit "Basic" ++ 0x20 :: encodeToString key).dropWhile ows =
        lit "Basic" ++ 0x20 :: encodeToString key :=
      dropWhile_ows (by decide +kernel) (by decide) _
    have hlast : (lit "Basic" ++ 0x20 :: encodeToString key).reverse.dropWhile ows =
        (lit "Basic" ++ 0x20 :: encodeToString key).reverse := by
      rw [List.reverse_append, List.reverse_cons, List.append_assoc]
      exact dropWhile_ows (fun c hc => henc c (List.mem_reverse.mp hc))
        (List.reverse_ne_nil_iff.mpr henc') _
    have hfield := readField_append (show Visible (lit "Proxy-Authorization") by decide +kernel)
      (by decide) (by decide) hvalue hfirst hlast
    have hname : equalFold (lit "Proxy-Authorization") (lit "Host") = false := by decide
    refine ⟨[(lit "Proxy-Authorization", lit "Basic" ++ 0x20 :: encodeToString key)], ?_, ?_⟩
    · rw [hline]
      refine readFields_append ?_ hfield (k + 1) (readFields_crlf k [])
      have hcr := henc.notMem (c := 0x0D) rfl
      have hlf := henc.notMem (c := 0x0A) rfl
      have hlits : 0x0D ∉ lit "Proxy-Authorization" ∧ 0x0A ∉ lit "Proxy-Authorization" ∧
          0x0D ∉ lit "Basic" ∧ 0x0A ∉ lit "Basic" := by decide
      simp [hcr, hlf, hlits]
    · rw [List.filter_cons_of_neg (by rw [hname]; decide), List.filter_nil]
  · refine ⟨[], ?_, rfl⟩
    rw [HttpProxy.authLine, if_neg hkey]
    exact readFields_crlf (k + 1) []

lemma isConnect_of_plainDomain (h : PlainDomain domain) :
    IsConnect (HttpProxy.connectRequest key (.fromFqdn domain port)) (.fromFqdn domain port) := by
  obtain ⟨hne, hplain⟩ := h
  have htext : (Socksaddr.fromFqdn domain port).string = joinHostPort domain (itoa port.toNat) := by
    cases domain with
    | nil => exact absurd rfl hne
    | cons c domain => rfl
  have hsplit : splitHostPort (joinHostPort domain (itoa port.toNat)) =
      .ok (domain, itoa port.toNat) :=
    splitHostPort_joinHostPort (fun hc => (hplain _ hc).2.1 rfl) (fun hc => (hplain _ hc).2.2 rfl)
      fun c hc => mem_itoa hc
  have hvis : Visible (joinHostPort domain (itoa port.toNat)) :=
    visible_joinHostPort (fun c hc => (hplain c hc).1) (visible_itoa _)
  have hnil := joinHostPort_ne_nil domain (itoa port.toNat)
  generalize joinHostPort domain (itoa port.toNat) = target at htext hsplit hvis hnil
  have hcr := hvis.notMem (c := 0x0D) rfl
  have hlf := hvis.notMem (c := 0x0A) rfl
  have hlits : 0x0D ∉ lit "CONNECT" ∧ 0x0A ∉ lit "CONNECT" ∧ 0x0D ∉ lit "HTTP/1.1" ∧
      0x0A ∉ lit "HTTP/1.1" ∧ 0x0D ∉ lit "Host" ∧ 0x0A ∉ lit "Host" := by decide
  -- the number of bytes bounds the number of lines
  have hfuel : ∃ k, ((lit "Host" ++ 0x3A :: 0x20 :: target) ++ crlf ++
      (HttpProxy.authLine key ++ crlf)).length = k + 3 := by
    refine ⟨(lit "Host").length + target.length + 3 + (HttpProxy.authLine key).length, ?_⟩
    simp only [List.length_append, List.length_cons, crlf, List.length_nil]
    omega
  obtain ⟨k, hk⟩ := hfuel
  obtain ⟨fs, hfs, hhost⟩ := readFields_authLine key k
  have hfield : readField (lit "Host" ++ 0x3A :: 0x20 :: target) = some (lit "Host", target) := by
    refine readField_append (by decide +kernel) (by decide) (by decide) (fun c hc => .inl (hvis c hc)) ?_ ?_
    · simpa using dropWhile_ows hvis hnil []
    · simpa using dropWhile_ows (s := target.reverse)
        (fun c hc => hvis c (List.mem_reverse.mp hc)) (List.reverse_ne_nil_iff.mpr hnil) []
  have hfields := readFields_append (by simp [hcr, hlf, hlits]) hfield (k + 2) hfs
  have hline := readRequestLine_append (show Visible (lit "CONNECT") by decide +kernel) hvis
    (show Visible (lit "HTTP/1.1") by decide +kernel) (by decide) hnil
  rw [← hk] at hfields
  refine ⟨⟨lit "CONNECT", target, lit "HTTP/1.1", (lit "Host", target) :: fs⟩, ?_, rfl, hsplit,
    (lit "Host", target), ?_, hsplit⟩
  · rw [connectRequest_eq, htext]
    exact readHead_append (by simp [hcr, hlf, hlits]) hline hfields
  · have hname : equalFold (lit "Host") (lit "Host") = true := by decide
    simp only [List.filter_cons, hname, if_true, hhost]

/-- A domain with line breaks, as the SOCKS inbound takes it. -/
def splittingDomain : Str := lit "a HTTP/1.1\r\n\r\nGET / HTTP/1.1\r\nX"

end

end Ntr.Proto
