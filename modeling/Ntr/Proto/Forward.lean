/-
Plaintext forwarding by the HTTP inbound, over a whole connection.

* `confined_iff`: of a sequence of requests in absolute form, no credentials for
  the proxy are relayed and each goes to its own host, if and only if those
  after the first have no such credentials and name the first one's host.
-/
import Ntr.Proto.HttpProxy

namespace Ntr.Proto

open Go Meter Lib Lib.FailState List HttpProxy

/-! ### The stream that is relayed -/

/-- `forwardStream`: what the pipe still holds of the rebuilt request, until its
end is read, with the error that the pipe is closed with (`io.EOF` where all was
written); and the bytes of the client behind the request with their error. -/
structure ForwardStream where
  up : Option Str
  upErr : Error := .eof
  r : Str
  readErr : Error := .eof

namespace ForwardStream

/-- `Read` of up to `n` bytes from the buffered reader. -/
def readRest (s : ForwardStream) (n : Nat) : Except Error Str × ForwardStream :=
  if s.r = [] then (.error s.readErr, { s with up := none })
  else (.ok (s.r.take n), { s with up := none, r := s.r.drop n })

/-- `Read` of up to `n` bytes. -/
def read (s : ForwardStream) (n : Nat) : Except Error Str × ForwardStream :=
  match s.up with
  | none => s.readRest n
  | some [] => if s.upErr = .eof then s.readRest n else (.error s.upErr, s)
  | some u => (.ok (u.take n), { s with up := some (u.drop n) })

def reads (s : ForwardStream) : List Nat → Str
  | [] => []
  | n :: ns =>
    match s.read n with
    | (.error _, _) => []
    | (.ok d, s) => d ++ s.reads ns

def content (s : ForwardStream) : Str :=
  s.up.getD [] ++ if s.up = none ∨ s.upErr = .eof then s.r else []

lemma readRest_cases (s : ForwardStream) {n : Nat} (hn : 0 < n) :
    (s.r = [] ∧ ∃ e s', s.readRest n = (.error e, s')) ∨
      ∃ d s', s.readRest n = (.ok d, s') ∧ d ≠ [] ∧ s.r = d ++ s'.content := by
  by_cases hr : s.r = []
  · refine .inl ⟨hr, s.readErr, { s with up := none }, ?_⟩
    rw [readRest, if_pos hr]
  · refine .inr ⟨s.r.take n, { s with up := none, r := s.r.drop n }, ?_, ?_, ?_⟩
    · rw [readRest, if_neg hr]
    · rw [Ne, take_eq_nil_iff]
      exact fun h => h.elim hn.ne' hr
    · simp [content]

lemma read_cases (s : ForwardStream) {n : Nat} (hn : 0 < n) :
    (s.content = [] ∧ ∃ e s', s.read n = (.error e, s')) ∨
      ∃ d s', s.read n = (.ok d, s') ∧ d ≠ [] ∧ s.content = d ++ s'.content := by
  obtain ⟨up, upErr, r, readErr⟩ := s
  match up with
  | none => simpa [read, content] using readRest_cases ⟨none, upErr, r, readErr⟩ hn
  | some [] =>
    by_cases he : upErr = .eof
    · simpa [read, content, he] using readRest_cases ⟨some [], upErr, r, readErr⟩ hn
    · exact .inl ⟨by simp [content, he], upErr, _, by rw [read]; exact if_neg he⟩
  | some (b :: u) =>
    refine .inr ⟨(b :: u).take n, ⟨some ((b :: u).drop n), upErr, r, readErr⟩, rfl, ?_, ?_⟩
    · rw [Ne, take_eq_nil_iff]
      exact fun h => h.elim hn.ne' (by simp)
    · simp only [content, Option.getD_some, reduceCtorEq, false_or, ← append_assoc,
        take_append_drop]

/-- **The relay gets the rebuilt request and then the client's own bytes**, in
reads of any lengths. -/
theorem reads_eq_content (ns : List Nat) : ∀ s : ForwardStream, (∀ n ∈ ns, 0 < n) →
    s.content.length ≤ ns.length → s.reads ns = s.content := by
  induction ns with
  | nil =>
    intro s _ hlen
    exact (length_eq_zero_iff.mp (Nat.le_zero.mp hlen)).symm
  | cons n ns ih =>
    intro s hns hlen
    rcases s.read_cases (hns n mem_cons_self) with
      ⟨hnil, e, s', hread⟩ | ⟨d, s', hread, hd, hcont⟩
    · rw [reads, hread, hnil]
    · have hpos := length_pos_iff.mpr hd
      have hrest : s'.content.length ≤ ns.length := by
        rw [hcont, length_append, length_cons] at hlen
        omega
      rw [reads, hread, hcont]
      exact congrArg (d ++ ·) (ih s' (fun m hm => hns m (mem_cons_of_mem n hm)) hrest)

theorem reads_eq_content_three :
    ({ up := some [1, 2], r := [3] } : ForwardStream).reads [4, 1, 2] = [1, 2, 3] :=
  reads_eq_content [4, 1, 2] _ (by decide) (by decide)

end ForwardStream

/-! ### The library -/

/-- The body of a request: its data, whether it comes in chunks, and the error
that its reader ends with. -/
structure HttpBody where
  data : Str
  chunked : Bool := false
  err : Error := .eof
  deriving DecidableEq

/-- The parts of `net/http` that a forwarded request goes through: the parser of
heads; the reader of the body of the request that the bytes start with, with the
number of bytes it takes behind the head; and `Request.Write`, with the error
that closes the pipe. -/
structure HttpWire extends HttpLib where
  readBody : Str → Error → HttpBody × Nat
  writeRequest : HttpRequest → HttpBody → Str × Error

/-- The fields that `Request.Write` writes by itself. -/
def writtenFields : List Str :=
  [lit "Host", lit "User-Agent", lit "Content-Length", lit "Transfer-Encoding", lit "Trailer",
    lit "Connection"]

namespace HttpRequest

def urlHost (req : HttpRequest) : Str := (req.url.map (·.host)).getD []

/-- The request as it is handed on: without the fields for the proxy, in origin
form. -/
def rebuilt (req : HttpRequest) : HttpRequest :=
  originForm ((req.del (lit "Proxy-Connection")).del proxyAuthorization) req.urlHost

def NoCredentials (req : HttpRequest) : Prop :=
  req.header.find? (·.1 = proxyAuthorization) = none

instance (req : HttpRequest) : Decidable req.NoCredentials :=
  inferInstanceAs (Decidable (_ = _))

lemma noCredentials_iff {req : HttpRequest} :
    req.NoCredentials ↔ ∀ f ∈ req.header, f.1 ≠ proxyAuthorization := by
  simp [NoCredentials, find?_eq_none]

lemma noCredentials_rebuilt (req : HttpRequest) : req.rebuilt.NoCredentials := find?_del _ _

end HttpRequest

namespace HttpWire

variable (W : HttpWire)

/-- The bytes are one request, whatever follows them. -/
def IsRequest (b : Str) (req : HttpRequest) (body : HttpBody) : Prop :=
  b ≠ [] ∧ body.err = .eof ∧ ∀ rest e, ∃ n, W.readRequest (b ++ rest) e = .ok (req, n) ∧
    n ≤ b.length ∧ W.readBody (b ++ rest) e = (body, b.length - n)

/-- The parser and the serialiser are correct: there is no request in no bytes;
and of a request that was read, what is written of the rebuilt request with the
body is one request, with that body and with no fields but those it was given
and those that the library writes by itself. -/
structure Correct : Prop where
  readRequest_nil : ∀ e, W.readRequest [] e = .error e
  write_isRequest : ∀ b req body, W.IsRequest b req body → req.urlHost ≠ [] →
    (W.writeRequest req.rebuilt body).2 = .eof ∧
      ∃ out, W.IsRequest (W.writeRequest req.rebuilt body).1 out body ∧
        ∀ f ∈ out.header, f ∈ req.rebuilt.header ∨ f.1 ∈ writtenFields

def requests : Nat → Str → List HttpRequest
  | 0, _ => []
  | k + 1, b =>
    match W.readRequest b .eof with
    | .error _ => []
    | .ok (req, n) => req :: requests k (b.drop (n + (W.readBody b .eof).2))

/-- The stream that `ServerHandshake` returns for a request to be forwarded: the
bytes that the request started, and those left behind its head. -/
def forwardStream (req : HttpRequest) (bytes left : Str) (e : Error) : ForwardStream :=
  let body := W.readBody bytes e
  let written := W.writeRequest req body.1
  { up := some written.1, upErr := written.2, r := left.drop body.2, readErr := e }

/-- The requests that the upstream reads of a connection, with the address that
the upstream was dialled at. -/
def relayed (p : HttpProxy.Proxy) (auth : Authenticator) (s : Stream) :
    List (Socksaddr × HttpRequest) :=
  match outcome (serverHandshake p W.toHttpLib auth) s with
  | .ok (.forward req, r) =>
    let left := (after (serverHandshake p W.toHttpLib auth) s).bytes
    let sent := (W.forwardStream req s.bytes left s.readErr).content
    (W.requests sent.length sent).map fun q => (r.dst, q)
  | _ => []

variable {W}

lemma requests_cons {b : Str} {req : HttpRequest} {body : HttpBody} (h : W.IsRequest b req body)
    (k : Nat) (rest : Str) : W.requests (k + 1) (b ++ rest) = req :: W.requests k rest := by
  obtain ⟨-, -, hread⟩ := h
  obtain ⟨n, hreq, hn, hbody⟩ := hread rest .eof
  have hdrop : n + (b.length - n) = b.length := by omega
  rw [requests, hreq, hbody]
  simp only [hdrop, drop_left]

lemma requests_nil (hW : W.Correct) (k : Nat) : W.requests k [] = [] := by
  cases k with
  | zero => rfl
  | succ k => rw [requests, hW.readRequest_nil]

end HttpWire

/-! ### What a client sends -/

/-- A request with the bytes that a client sends it in. -/
structure ClientRequest where
  bytes : Str
  req : HttpRequest
  body : HttpBody

namespace ClientRequest

/-- The bytes are that request, and it is in absolute form. -/
structure Valid (W : HttpWire) (m : ClientRequest) : Prop where
  isRequest : W.IsRequest m.bytes m.req m.body
  method : m.req.method ≠ lit "CONNECT"
  urlHost : m.req.urlHost ≠ []

end ClientRequest

section
variable {W : HttpWire} {p : HttpProxy.Proxy} {auth : Authenticator}

lemma requests_sent (hW : W.Correct) : ∀ (ms : List ClientRequest) (k : Nat),
    (∀ m ∈ ms, m.Valid W) → ms.length ≤ k → W.requests k (ms.flatMap (·.bytes)) = ms.map (·.req)
  | [], k, _, _ => HttpWire.requests_nil hW k
  | m :: ms, k + 1, h, hk => by
    have ih := requests_sent hW ms k (fun x hx => h x (mem_cons_of_mem m hx))
      (Nat.le_of_succ_le_succ hk)
    rw [flatMap_cons, HttpWire.requests_cons (h m mem_cons_self).isRequest, ih, map_cons]

lemma length_le_sent : ∀ ms : List ClientRequest, (∀ m ∈ ms, m.Valid W) →
    ms.length ≤ (ms.flatMap (·.bytes)).length
  | [], _ => Nat.le_refl 0
  | m :: ms, h => by
    have ih := length_le_sent ms fun x hx => h x (mem_cons_of_mem m hx)
    have hpos := length_pos_iff.mpr (h m mem_cons_self).isRequest.1
    rw [length_cons, flatMap_cons, length_append]
    omega

/-! ### The first request -/

/-- The port takes the request, for the given destination: its credentials are
known or none are required, and its URL names a host and a port. -/
def Accepts (p : HttpProxy.Proxy) (L : HttpLib) (auth : Authenticator) (req : HttpRequest)
    (dst : Socksaddr) : Prop :=
  (((basicKey ((req.del (lit "Proxy-Connection")).get
      proxyAuthorization)).bind (auth (lit "http"))).isSome ∨ p.authRequired = false) ∧
    parseHostPort L req.urlHost 80 = .ok dst

lemma succeeds_serve {L : HttpLib} (ref : CredID) {req : HttpRequest} (t : Tape)
    {Q : HttpProxy.Carrier × Request → Tape → Prop} (hm : req.method ≠ lit "CONNECT")
    (hhost : req.urlHost ≠ []) : Succeeds (serve L ref req) t Q ↔
      ∃ dst, parseHostPort L req.urlHost 80 = .ok dst ∧ Q (.forward (originForm req req.urlHost),
          { dst, cred := ref, network := .tcp }) t := by
  rw [serve, if_neg hm]
  change Succeeds (if req.urlHost = [] then _ else _) t Q ↔ _
  rw [if_neg hhost, succeeds_bind, succeeds_lift]
  simp only [succeeds_pure]
  rfl

/-- **The handshake on a request in absolute form** succeeds if and only if the
port takes the request; it hands on the rebuilt request and leaves what stands
behind its head. -/
lemma succeeds_serverHandshake {L : HttpLib} {t : Tape} {req : HttpRequest} {n : Nat}
    (hread : L.readRequest t.bytes t.readErr = .ok (req, n)) (hm : req.method ≠ lit "CONNECT")
    (hhost : req.urlHost ≠ []) {Q : HttpProxy.Carrier → Socksaddr → Str → Prop} :
    Succeeds (serverHandshake p L auth) t (fun x t' => Q x.1 x.2.dst t'.bytes) ↔
      ∃ dst, Accepts p L auth req dst ∧ Q (.forward req.rebuilt) dst (t.bytes.drop n) := by
  let plain := (req.del (lit "Proxy-Connection")).del proxyAuthorization
  have hserve (ref : CredID) (t' : Tape) := succeeds_serve (L := L) ref t'
    (Q := fun x t' => Q x.1 x.2.dst t'.bytes) (show plain.method ≠ lit "CONNECT" from hm) hhost
  simp only [serverHandshake, succeeds_bind, succeeds_newReader, succeeds_parse, hread,
    Except.ok.injEq, Prod.mk.injEq, succeeds_authenticate]
  constructor
  · rintro ⟨_, _, ⟨rfl, rfl⟩, ⟨c, hc, hs⟩ | ⟨-, hopen, hs⟩⟩
    · obtain ⟨dst, hdst, hQ⟩ := (hserve c _).mp hs
      exact ⟨dst, ⟨.inl (Option.isSome_of_eq_some hc), hdst⟩, hQ⟩
    · obtain ⟨dst, hdst, hQ⟩ := (hserve ambient _).mp hs
      exact ⟨dst, ⟨.inr hopen, hdst⟩, hQ⟩
  · rintro ⟨dst, ⟨hauth, hdst⟩, hQ⟩
    refine ⟨req, n, ⟨rfl, rfl⟩, ?_⟩
    cases hc : (basicKey ((req.del (lit "Proxy-Connection")).get
        proxyAuthorization)).bind (auth (lit "http")) with
    | some c => exact .inl ⟨c, rfl, (hserve c _).mpr ⟨dst, hdst, hQ⟩⟩
    | none =>
      rw [hc] at hauth
      exact .inr ⟨rfl, hauth.resolve_left (by simp), (hserve ambient _).mpr ⟨dst, hdst, hQ⟩⟩

/-! ### The requests of a connection -/

/-- What the upstream reads of a first request that the port takes: the rebuilt
request without credentials, then the others as they were sent. -/
lemma relayed_of_accepts (hW : W.Correct) {s : Stream} {m : ClientRequest}
    {ms : List ClientRequest} (h : ∀ x ∈ m :: ms, x.Valid W)
    (hs : s.bytes = (m :: ms).flatMap (·.bytes)) {dst : Socksaddr}
    (hacc : Accepts p W.toHttpLib auth m.req dst) : ∃ out : HttpRequest, out.NoCredentials ∧
      W.relayed p auth s = (dst, out) :: ms.map fun x => (dst, x.req) := by
  obtain ⟨hreq, hmethod, hhost⟩ := h m mem_cons_self
  have hms : ∀ x ∈ ms, x.Valid W := fun x hx => h x (mem_cons_of_mem m hx)
  obtain ⟨n, hread, hn, hbody⟩ := hreq.2.2 (ms.flatMap (·.bytes)) s.readErr
  rw [← flatMap_cons, ← hs] at hread hbody
  obtain ⟨hend, out, hout, hfields⟩ := hW.write_isRequest _ _ _ hreq hhost
  -- the fields that the library adds are not credentials
  have hno : out.NoCredentials := by
    refine HttpRequest.noCredentials_iff.mpr fun f hf => ?_
    rcases hfields f hf with hf | hf
    · exact HttpRequest.noCredentials_iff.mp (HttpRequest.noCredentials_rebuilt m.req) f hf
    · intro heq
      rw [heq] at hf
      exact absurd hf (by decide)
  refine ⟨out, hno, ?_⟩
  have hsucc : Succeeds (serverHandshake p W.toHttpLib auth) s fun x s' =>
      x.1 = .forward m.req.rebuilt ∧ x.2.dst = dst ∧ s'.bytes = s.bytes.drop n :=
    (simulates_serverHandshake p W.toHttpLib auth).succeeds_iff
      (P := fun x t => x.1 = .forward m.req.rebuilt ∧ x.2.dst = dst ∧ t.bytes = s.bytes.drop n)
      |>.mpr <| (succeeds_serverHandshake (t := s.tape) hread hmethod hhost
        (Q := fun c d b => c = .forward m.req.rebuilt ∧ d = dst ∧ b = s.bytes.drop n)).mpr
        ⟨dst, hacc, rfl, rfl, rfl⟩
  obtain ⟨⟨c, r⟩, hout', hc, hdst, hleft⟩ := hsucc
  dsimp only at hc hdst
  subst hc hdst
  have hrest : (s.bytes.drop n).drop (m.bytes.length - n) = ms.flatMap (·.bytes) := by
    rw [drop_drop, Nat.add_sub_cancel' hn, hs, flatMap_cons, drop_left]
  have hcontent : (W.forwardStream m.req.rebuilt s.bytes (s.bytes.drop n) s.readErr).content =
      (W.writeRequest m.req.rebuilt m.body).1 ++ ms.flatMap (·.bytes) := by
    simp only [HttpWire.forwardStream, hbody, hrest, ForwardStream.content, hend, or_true, if_true,
      Option.getD_some]
  have hpos := length_pos_iff.mpr hout.1
  have hlen := length_le_sent ms hms
  obtain ⟨k, hk⟩ : ∃ k, ((W.writeRequest m.req.rebuilt m.body).1 ++
      ms.flatMap (·.bytes)).length = k + 1 := by
    refine Nat.exists_eq_succ_of_ne_zero ?_
    rw [length_append]
    omega
  rw [HttpWire.relayed, hout']
  simp only [hleft, hcontent, hk]
  rw [HttpWire.requests_cons hout, requests_sent hW ms k hms
    (by rw [length_append] at hk; omega), map_cons, map_map]
  rfl

lemma relayed_of_not_succeeds {s : Stream}
    (h : ¬ Succeeds (serverHandshake p W.toHttpLib auth) s.tape fun _ _ => True) :
    W.relayed p auth s = [] := by
  rw [← (simulates_serverHandshake p W.toHttpLib auth).succeeds_iff] at h
  rw [HttpWire.relayed]
  cases hx : outcome (serverHandshake p W.toHttpLib auth) s with
  | error e => rfl
  | ok x => exact absurd ⟨x, hx, trivial⟩ h

lemma relayed_of_not_accepts {s : Stream} {m : ClientRequest} {ms : List ClientRequest}
    (h : m.Valid W) (hs : s.bytes = (m :: ms).flatMap (·.bytes))
    (hacc : ∀ dst, ¬ Accepts p W.toHttpLib auth m.req dst) : W.relayed p auth s = [] := by
  obtain ⟨hreq, hmethod, hhost⟩ := h
  obtain ⟨n, hread, -, -⟩ := hreq.2.2 (ms.flatMap (·.bytes)) s.readErr
  rw [← flatMap_cons, ← hs] at hread
  refine relayed_of_not_succeeds ?_
  rw [succeeds_serverHandshake (t := s.tape) hread hmethod hhost (Q := fun _ _ _ => True)]
  rintro ⟨dst, hdst, -⟩
  exact hacc dst hdst

lemma relayed_nil (hW : W.Correct) {s : Stream} (hs : s.bytes = []) : W.relayed p auth s = [] := by
  refine relayed_of_not_succeeds ?_
  rw [serverHandshake, succeeds_bind, succeeds_newReader, succeeds_bind, succeeds_parse]
  rintro ⟨req, n, hread, -⟩
  rw [show s.tape.bytes = [] from hs, hW.readRequest_nil] at hread
  cases hread

end

/-- **No credentials leave the port and no request is misdirected**: of the
requests sent, each one that an upstream reads has no credentials for the proxy,
and the upstream is the host in the URL it was sent with. -/
def Confined (W : HttpWire) (p : HttpProxy.Proxy) (auth : Authenticator) (s : Stream)
    (ms : List ClientRequest) : Prop :=
  ∀ (i : Nat) (dst : Socksaddr) (q : HttpRequest), (W.relayed p auth s)[i]? = some (dst, q) →
    q.NoCredentials ∧ ∃ m : ClientRequest, ms[i]? = some m ∧
        parseHostPort W.toHttpLib m.req.urlHost 80 = .ok dst

/-- The requests behind one that the port takes have no credentials for the
proxy, and name the host that it names. -/
def Alone (W : HttpWire) (p : HttpProxy.Proxy) (auth : Authenticator) : List ClientRequest → Prop
  | [] => True
  | m :: ms => ∀ dst, Accepts p W.toHttpLib auth m.req dst → ∀ x ∈ ms,
      x.req.NoCredentials ∧ parseHostPort W.toHttpLib x.req.urlHost 80 = .ok dst

/-- **Forwarding is sound for one request, or for requests that need no
rebuilding**: whatever requests in absolute form a client sends, none of them
leaks credentials or goes to another host, if and only if those behind a first
request that is taken have no credentials and name its host. -/
theorem confined_iff (W : HttpWire) (hW : W.Correct) (p : HttpProxy.Proxy) (auth : Authenticator)
    (s : Stream) (ms : List ClientRequest) (h : ∀ m ∈ ms, m.Valid W)
    (hs : s.bytes = ms.flatMap (·.bytes)) : Confined W p auth s ms ↔ Alone W p auth ms := by
  cases ms with
  | nil =>
    refine iff_of_true ?_ trivial
    intro i dst q hi
    rw [relayed_nil hW hs] at hi
    simp at hi
  | cons m ms =>
    by_cases hacc : ∃ dst, Accepts p W.toHttpLib auth m.req dst
    · obtain ⟨dst, hacc⟩ := hacc
      obtain ⟨out, hno, hrel⟩ := relayed_of_accepts hW h hs hacc
      constructor
      · intro hconf dst' hacc' x hx
        have hdst : dst' = dst := Except.ok.inj (hacc'.2.symm.trans hacc.2)
        obtain ⟨i, hi⟩ := mem_iff_getElem?.mp hx
        have hget : (W.relayed p auth s)[i + 1]? = some (dst, x.req) := by
          simp [hrel, hi]
        obtain ⟨hcred, y, hy, hhost⟩ := hconf (i + 1) dst x.req hget
        rw [getElem?_cons_succ, hi, Option.some.injEq] at hy
        rw [hdst, hy]
        exact ⟨hy ▸ hcred, hhost⟩
      · intro halone i dst' q hi
        rw [hrel] at hi
        cases i with
        | zero =>
          rw [getElem?_cons_zero, Option.some.injEq, Prod.mk.injEq] at hi
          obtain ⟨rfl, rfl⟩ := hi
          exact ⟨hno, m, rfl, hacc.2⟩
        | succ i =>
          rw [getElem?_cons_succ, getElem?_map, Option.map_eq_some_iff] at hi
          obtain ⟨x, hx, hq⟩ := hi
          rw [Prod.mk.injEq] at hq
          obtain ⟨hcred, hhost⟩ := halone dst hacc x (mem_of_getElem? hx)
          rw [← hq.1, ← hq.2]
          exact ⟨hcred, x, hx, hhost⟩
    · have hnone : ∀ dst, ¬ Accepts p W.toHttpLib auth m.req dst := fun dst hdst => hacc ⟨dst, hdst⟩
      have hrel := relayed_of_not_accepts (h m mem_cons_self) hs hnone
      refine iff_of_true ?_ fun dst hdst => absurd hdst (hnone dst)
      intro i dst q hi
      rw [hrel] at hi
      simp at hi

/-! ### A library for a few requests -/

/-- A library that knows the requests of a table, none of which has a body. -/
def tableWire (t : List (Str × HttpRequest)) (write : HttpRequest → Str) : HttpWire where
  readRequest b e :=
    match t.find? (·.1.isPrefixOf b) with
    | some x => .ok (x.2, x.1.length)
    | none => .error e
  parseAddr _ := none
  quote s := s
  readBody _ _ := ({ data := [] }, 0)
  writeRequest req _ := (write req, .eof)

def PrefixFree (t : List (Str × HttpRequest)) : Prop :=
  ∀ x ∈ t, x.1 ≠ [] ∧ ∀ y ∈ t, y.1.isPrefixOf x.1 → y = x

instance (t : List (Str × HttpRequest)) : Decidable (PrefixFree t) :=
  inferInstanceAs (Decidable (∀ x ∈ t, _))

section
variable {t : List (Str × HttpRequest)} {write : HttpRequest → Str}

lemma isRequest_of_mem (ht : PrefixFree t) {x : Str × HttpRequest} (hx : x ∈ t) :
    (tableWire t write).IsRequest x.1 x.2 { data := [] } := by
  refine ⟨(ht x hx).1, rfl, fun rest e => ⟨x.1.length, ?_, Nat.le_refl _, ?_⟩⟩
  · have hfind : t.find? (·.1.isPrefixOf (x.1 ++ rest)) = some x := by
      have hsome : (t.find? (·.1.isPrefixOf (x.1 ++ rest))).isSome := by
        rw [find?_isSome]
        exact ⟨x, hx, List.isPrefixOf_iff_prefix.mpr (prefix_append x.1 rest)⟩
      obtain ⟨y, hy⟩ := Option.isSome_iff_exists.mp hsome
      have hfound := find?_some hy
      have hpre : y.1 <+: x.1 ++ rest := List.isPrefixOf_iff_prefix.mp hfound
      have hmem := mem_of_find?_eq_some hy
      rcases prefix_or_prefix_of_prefix hpre (prefix_append x.1 rest) with h | h
      · rw [hy, (ht x hx).2 y hmem (List.isPrefixOf_iff_prefix.mpr h)]
      · rw [hy, (ht y hmem).2 x hx (List.isPrefixOf_iff_prefix.mpr h)]
    simp only [tableWire, hfind]
  · simp [tableWire]

lemma mem_of_isRequest {b : Str} {req : HttpRequest} {body : HttpBody}
    (h : (tableWire t write).IsRequest b req body) : req ∈ t.map (·.2) ∧ body = { data := [] } := by
  obtain ⟨n, hread, -, hbody⟩ := h.2.2 [] .eof
  refine ⟨?_, (congrArg Prod.fst hbody).symm⟩
  simp only [tableWire] at hread
  cases hfind : t.find? (·.1.isPrefixOf (b ++ [])) with
  | none =>
    rw [hfind] at hread
    cases hread
  | some x =>
    rw [hfind] at hread
    cases hread
    exact mem_map_of_mem (mem_of_find?_eq_some hfind)

/-- Such a library is correct where it writes requests of its table, with no
fields but those of the library. -/
lemma correct_tableWire (ht : PrefixFree t)
    (hw : ∀ x ∈ t, x.2.urlHost ≠ [] → ∃ y ∈ t, y.1 = write x.2.rebuilt ∧
      ∀ f ∈ y.2.header, f.1 ∈ writtenFields) :
    (tableWire t write).Correct where
  readRequest_nil e := by
    have hfind : t.find? (·.1.isPrefixOf ([] : Str)) = none := by
      rw [find?_eq_none]
      intro x hx hpre
      exact (ht x hx).1 (prefix_nil.mp (List.isPrefixOf_iff_prefix.mp hpre))
    simp only [tableWire, hfind]
  write_isRequest b req body h hhost := by
    obtain ⟨hmem, rfl⟩ := mem_of_isRequest h
    obtain ⟨x, hx, rfl⟩ := mem_map.mp hmem
    obtain ⟨y, hy, hout, hheader⟩ := hw x hx hhost
    refine ⟨rfl, y.2, ?_, ?_⟩
    · change (tableWire t write).IsRequest (write x.2.rebuilt) y.2 _
      rw [← hout]
      exact isRequest_of_mem ht hy
    · exact fun f hf => .inr (hheader f hf)

end

/-- The requests to two hosts, with and without credentials, and what the
library writes of them. -/
def twoHostsTable : List (Str × HttpRequest) :=
  [(lit ("GET http://a.example/ HTTP/1.1\r\nHost: a.example\r\n" ++
      "Proxy-Authorization: Basic dTpw\r\n\r\n"),
    ⟨lit "GET", lit "a.example", some ⟨lit "http", lit "a.example"⟩, lit "http://a.example/",
      [(lit "Proxy-Authorization", lit "Basic dTpw")]⟩),
   (lit "GET http://a.example/ HTTP/1.1\r\nHost: a.example\r\n\r\n",
    ⟨lit "GET", lit "a.example", some ⟨lit "http", lit "a.example"⟩, lit "http://a.example/", []⟩),
   (lit ("GET http://b.example/ HTTP/1.1\r\nHost: b.example\r\n" ++
      "Proxy-Authorization: Basic dTpw\r\n\r\n"),
    ⟨lit "GET", lit "b.example", some ⟨lit "http", lit "b.example"⟩, lit "http://b.example/",
      [(lit "Proxy-Authorization", lit "Basic dTpw")]⟩),
   (lit "GET / HTTP/1.1\r\nHost: a.example\r\nUser-Agent: Go-http-client/1.1\r\n\r\n",
    ⟨lit "GET", lit "a.example", some ⟨[], []⟩, lit "/",
      [(lit "User-Agent", lit "Go-http-client/1.1")]⟩),
   (lit "GET / HTTP/1.1\r\nHost: b.example\r\nUser-Agent: Go-http-client/1.1\r\n\r\n",
    ⟨lit "GET", lit "b.example", some ⟨[], []⟩, lit "/",
      [(lit "User-Agent", lit "Go-http-client/1.1")]⟩)]

def twoHostsWire : HttpWire :=
  tableWire twoHostsTable fun req =>
    lit "GET / HTTP/1.1\r\nHost: " ++ req.host ++ lit "\r\nUser-Agent: Go-http-client/1.1\r\n\r\n"

lemma prefixFree_twoHostsTable : PrefixFree twoHostsTable := by decide +kernel

lemma correct_twoHostsWire : twoHostsWire.Correct :=
  correct_tableWire prefixFree_twoHostsTable (by decide +kernel)

/-- The requests of the table with the given numbers. -/
def twoHostsRequests (is : List Nat) : List ClientRequest :=
  is.filterMap fun i => (twoHostsTable[i]?).map fun x => ⟨x.1, x.2, { data := [] }⟩

/-- The connection of a client that sends them in one piece. -/
def clientStream (ms : List ClientRequest) : Stream := { segments := [ms.flatMap (·.bytes)] }

def proxyUser : Authenticator := fun _ key => if key = lit "u:p" then some 7 else none

lemma valid_twoHostsRequests {is : List Nat} (his : ∀ i ∈ is, i < 3) :
    ∀ m ∈ twoHostsRequests is, m.Valid twoHostsWire := by
  intro m hm
  obtain ⟨i, hi, hx⟩ := mem_filterMap.mp hm
  obtain ⟨x, hget, rfl⟩ := Option.map_eq_some_iff.mp hx
  have habs : ∀ i < 3, ∀ x, twoHostsTable[i]? = some x →
      x.2.method ≠ lit "CONNECT" ∧ x.2.urlHost ≠ [] := by
    decide +kernel
  exact ⟨isRequest_of_mem prefixFree_twoHostsTable (mem_of_getElem? hget),
    (habs i (his i hi) x hget).1, (habs i (his i hi) x hget).2⟩

/-- Two requests to one host, the second without credentials. -/
theorem confined_same_host : Confined twoHostsWire { authRequired := true } proxyUser
      (clientStream (twoHostsRequests [0, 1])) (twoHostsRequests [0, 1]) :=
  (confined_iff twoHostsWire correct_twoHostsWire { authRequired := true } proxyUser
    (clientStream (twoHostsRequests [0, 1])) (twoHostsRequests [0, 1])
    (valid_twoHostsRequests (by decide)) (by decide +kernel)).mpr (by
      intro dst hacc x hx
      rw [mem_singleton.mp hx]
      exact ⟨by decide +kernel, hacc.2⟩)

/-- **A later request leaks**: of two requests with credentials, to two hosts,
the upstream of the first reads the second as it was sent. -/
theorem later_request_leaks :
    twoHostsWire.Correct ∧ (∀ m ∈ twoHostsRequests [0, 2], m.Valid twoHostsWire) ∧
      ¬ Confined twoHostsWire { authRequired := true } proxyUser
        (clientStream (twoHostsRequests [0, 2])) (twoHostsRequests [0, 2]) := by
  refine ⟨correct_twoHostsWire, valid_twoHostsRequests (by decide), fun h => ?_⟩
  have hsecond : (twoHostsWire.relayed { authRequired := true } proxyUser
      (clientStream (twoHostsRequests [0, 2])))[1]? =
      some ({ fqdn := lit "a.example", port := 80 },
        ⟨lit "GET", lit "b.example", some ⟨lit "http", lit "b.example"⟩, lit "http://b.example/",
          [(lit "Proxy-Authorization", lit "Basic dTpw")]⟩) := by
    decide +kernel
  exact absurd (h 1 _ _ hsecond).1 (by decide +kernel)

end Ntr.Proto
