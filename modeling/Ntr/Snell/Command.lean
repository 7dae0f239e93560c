/-
The request of Snell (`snellv6/client.go`, `command.go`, `server.go`): the command
in front of the first bytes of the payload, in chunks of any sizes.

* `command_chunking`: when the chunks do not matter;
* `readCommand_dialCommand`: what the server has of a request, however it is cut
  into chunks.
-/
import Ntr.Go.Varint

namespace Ntr.Snell

open Go List

def cmdPing : UInt8 := 0
def cmdConnect : UInt8 := 1
def cmdUDP : UInt8 := 6

structure Command where
  command : UInt8
  clientID : Str := []
  host : Str := []
  port : UInt16 := 0
  deriving DecidableEq

/-- The request of `DialTCPOver`, with the bytes that go along with it. -/
def dialCommand (host : Str) (port : UInt16) (initial : Str) : Str :=
  [1, cmdConnect, 0, UInt8.ofNat host.length] ++ host ++ putBE 2 port.toNat ++ initial

/-- The host and the port behind the identity of a client, whose `p` bytes came
before. -/
def parseTarget (cmd : UInt8) (clientID : Str) (p : Nat) : Str → Option (Command × Nat)
  | [] => none
  | hostLen :: h =>
    if h.length < hostLen.toNat + 2 then none
    else some (⟨cmd, clientID, h.take hostLen.toNat, uint16 ((h.drop hostLen.toNat).take 2)⟩,
      p + 1 + hostLen.toNat + 2)

def parseBody (cmd : UInt8) : Str → Option (Command × Nat)
  | [] => none
  | idLen :: b =>
    if b.length < idLen.toNat then none
    else if cmd = cmdUDP then some (⟨cmdUDP, b.take idLen.toNat, [], 0⟩, 3 + idLen.toNat)
    else parseTarget cmd (b.take idLen.toNat) (3 + idLen.toNat) (b.drop idLen.toNat)

/-- `parseCommand`: the header and its length, or nothing when more bytes are
needed. -/
def parseCommand : Str → Except Error (Option (Command × Nat))
  | [] => .ok none
  | [_] => .ok none
  | ver :: cmd :: b =>
    if ver ≠ 1 then
      .error (.text (lit "snellv6: bad version " ++ itoa ver.toNat ++ lit " (want 1)"))
    else if cmd = cmdPing then .ok (some (⟨cmdPing, [], [], 0⟩, 2))
    else if cmd &&& 0xFB ≠ 1 ∧ cmd ≠ cmdUDP then
      .error (.text (lit "snellv6: unknown command " ++ itoa cmd.toNat))
    else .ok (parseBody cmd b)

/-- `readCommand`, over the chunks that the connection brings: the header, what
the chunks so far hold behind it, and the chunks to come. The salt of the
connection is looked up once it is known. -/
def readCommand (replayed : Bool) (buf : Str) : List Str → Except Error (Command × Str × List Str)
  | [] => .error .eof
  | c :: cs =>
    if replayed then .error (.text (lit "replayed salt"))
    else
      match parseCommand (buf ++ c) with
      | .error e => .error e
      | .ok none => readCommand replayed (buf ++ c) cs
      | .ok (some (h, n)) =>
        if (buf ++ c).length ≤ 2 then
          .error (.text (lit "snellv6: invalid request (command " ++ itoa (buf ++ c).length ++
            lit " bytes)"))
        else .ok (h, (buf ++ c).drop n, cs)

/-! ### More bytes -/

section
variable {b x : Str} {cmd : UInt8} {r : Command × Nat} {h : Command} {n : Nat}

lemma parseTarget_append {id : Str} {p : Nat} (hr : parseTarget cmd id p b = some r) :
    parseTarget cmd id p (b ++ x) = some r ∧ p + 2 < r.2 ∧ r.2 ≤ p + b.length := by
  cases b with
  | nil => cases hr
  | cons hostLen t =>
    rw [parseTarget] at hr
    split_ifs at hr with hlen
    obtain rfl := Option.some.inj hr
    have hlong : ¬ (t ++ x).length < hostLen.toNat + 2 := by
      rw [length_append]
      omega
    have hport : ((t ++ x).drop hostLen.toNat).take 2 = (t.drop hostLen.toNat).take 2 := by
      rw [drop_append_of_le_length (by omega),
        take_append_of_le_length (by rw [length_drop]; omega)]
    rw [cons_append, parseTarget, if_neg hlong, hport,
      take_append_of_le_length (by omega), length_cons]
    exact ⟨rfl, by omega, by omega⟩

lemma parseBody_append (hr : parseBody cmd b = some r) :
    parseBody cmd (b ++ x) = some r ∧ 2 < r.2 ∧ r.2 ≤ 2 + b.length := by
  cases b with
  | nil => cases hr
  | cons idLen t =>
    rw [parseBody] at hr
    split_ifs at hr with hlen hudp
    · obtain rfl := Option.some.inj hr
      have hlong : ¬ (t ++ x).length < idLen.toNat := by
        rw [length_append]
        omega
      rw [cons_append, parseBody, if_neg hlong, if_pos hudp,
        take_append_of_le_length (by omega), length_cons]
      exact ⟨rfl, by omega, by omega⟩
    · have hlong : ¬ (t ++ x).length < idLen.toNat := by
        rw [length_append]
        omega
      obtain ⟨htarget, hlo, hhi⟩ := parseTarget_append (x := x) hr
      rw [length_drop] at hhi
      rw [cons_append, parseBody, if_neg hlong, if_neg hudp,
        take_append_of_le_length (by omega), drop_append_of_le_length (by omega),
        length_cons]
      exact ⟨htarget, by omega, by omega⟩

/-- **A header that is there stays**, whatever comes behind it; only a ping has as little as
two bytes. -/
lemma parseCommand_append (hr : parseCommand b = .ok (some (h, n))) :
    parseCommand (b ++ x) = .ok (some (h, n)) ∧ n ≤ b.length ∧
      (n = 2 ∧ [1, cmdPing] <+: b ∨ 2 < n) := by
  rcases b with _ | ⟨ver, _ | ⟨cmd, t⟩⟩
  · cases hr
  · cases hr
  · rw [parseCommand] at hr
    rw [cons_append, cons_append, parseCommand]
    split_ifs at hr ⊢ with hver hping hknown
    · obtain ⟨rfl, rfl⟩ := Prod.mk.inj (Option.some.inj (Except.ok.inj hr))
      rw [hping, not_not.mp hver]
      exact ⟨rfl, Nat.le_add_left 2 _, .inl ⟨rfl, t, rfl⟩⟩
    · obtain ⟨hbody, hlo, hhi⟩ := parseBody_append (x := x) (Except.ok.inj hr)
      rw [hbody, length_cons, length_cons]
      exact ⟨rfl, by omega, .inr hlo⟩

lemma parseCommand_error_append {e : Error} (hr : parseCommand b = .error e) :
    parseCommand (b ++ x) = .error e := by
  rcases b with _ | ⟨ver, _ | ⟨cmd, t⟩⟩
  · cases hr
  · cases hr
  · rw [parseCommand] at hr
    rw [cons_append, cons_append, parseCommand]
    split_ifs at hr ⊢
    · exact hr
    · exact hr

/-- A ping with more behind it. -/
def LongPing (b : Str) : Prop := [1, cmdPing] <+: b ∧ 2 < b.length

/-- What a server has of the bytes `b` in one piece. -/
def received (b : Str) : Except Error (Command × Str) :=
  match parseCommand b with
  | .error e => .error e
  | .ok none => .error .eof
  | .ok (some (h, n)) =>
    if b.length ≤ 2 then
      .error (.text (lit "snellv6: invalid request (command " ++ itoa b.length ++ lit " bytes)"))
    else .ok (h, b.drop n)

/-- The command, and the bytes that go on to the target. -/
def forwarded : Except Error (Command × Str × List Str) → Except Error (Command × Str)
  | .error e => .error e
  | .ok (h, left, cs) => .ok (h, left ++ cs.flatten)

/-- **What the server has of the chunks** is what it has of their bytes. -/
lemma forwarded_readCommand (buf : Str) (chunks : List Str) (hbuf : parseCommand buf = .ok none)
    (hping : ¬ LongPing (buf ++ chunks.flatten)) :
    forwarded (readCommand false buf chunks) = received (buf ++ chunks.flatten) := by
  induction chunks generalizing buf with
  | nil => rw [flatten_nil, append_nil, received, hbuf, readCommand, forwarded]
  | cons c cs ih =>
    rw [flatten_cons, ← append_assoc] at hping ⊢
    rw [readCommand, if_neg (by decide)]
    cases hr : parseCommand (buf ++ c) with
    | error e => rw [received, parseCommand_error_append hr, forwarded]
    | ok found =>
      rcases found with _ | ⟨h, n⟩
      · exact ih _ hr hping
      · obtain ⟨hall, hn, hlong⟩ := parseCommand_append (x := cs.flatten) hr
        rw [received, hall]
        dsimp only
        by_cases hshort : (buf ++ c).length ≤ 2
        · -- the chunks so far are a ping, and then they are all that there is
          obtain ⟨-, hpre⟩ := hlong.resolve_right (by omega)
          have hlen : (buf ++ c).length = 2 := Nat.le_antisymm hshort hpre.length_le
          have hrest : (buf ++ c ++ cs.flatten).length = 2 := by
            have hwhole := hpre.trans (prefix_append _ cs.flatten)
            have hle := hwhole.length_le
            have hnot : ¬ 2 < (buf ++ c ++ cs.flatten).length := fun h2 => hping ⟨hwhole, h2⟩
            exact Nat.le_antisymm (Nat.not_lt.mp hnot) hle
          rw [if_pos hshort, if_pos (Nat.le_of_eq hrest), hlen, hrest, forwarded]
        · have hgo : ¬ (buf ++ c ++ cs.flatten).length ≤ 2 := by
            rw [length_append]
            omega
          rw [if_neg hshort, if_neg hgo, forwarded, drop_append_of_le_length hn]

/-- The chunks that the bytes come in do not matter. -/
def ChunksDoNotMatter (replayed : Bool) (b : Str) : Prop :=
  ∀ cs cs' : List Str, cs.flatten = b → cs'.flatten = b →
    forwarded (readCommand replayed [] cs) = forwarded (readCommand replayed [] cs')

lemma readCommand_replayed {cs : List Str} (hne : cs.flatten ≠ []) :
    readCommand true [] cs = .error (.text (lit "replayed salt")) := by
  cases cs with
  | nil => exact absurd rfl hne
  | cons c cs => rfl

lemma chunksDoNotMatter_iff {replayed : Bool} :
    ChunksDoNotMatter replayed b ↔ if replayed then b ≠ [] else ¬ LongPing b := by
  cases replayed with
  | true =>
    constructor
    · rintro h rfl
      have heq := h [] [[]] rfl rfl
      cases heq
    · rintro hne cs cs' rfl hcs
      rw [readCommand_replayed hne, readCommand_replayed (hcs ▸ hne)]
  | false =>
    constructor
    · rintro h ⟨⟨t, rfl⟩, hlong⟩
      have heq := h [[1, cmdPing] ++ t] [[1, cmdPing], t] (by simp) (by simp)
      have hone : readCommand false [] [[1, cmdPing] ++ t] = .ok (⟨cmdPing, [], [], 0⟩, t, []) :=
        if_neg (Nat.not_le.mpr hlong)
      rw [hone] at heq
      cases heq
    · rintro hping cs cs' rfl hcs
      have hread := forwarded_readCommand [] cs rfl hping
      have hread' := forwarded_readCommand [] cs' rfl (hcs ▸ hping)
      rw [hread, hread', hcs]

/-- **Commands in chunks.** A header that is there stays whatever comes behind it, and the
chunks do not matter, except for a ping: the size gate looks at the bytes so far, and refuses
a ping whose third byte comes in the next chunk. -/
theorem command_chunking (replayed : Bool) (b : Str) :
    (∀ {h n} (x : Str), parseCommand b = .ok (some (h, n)) →
        parseCommand (b ++ x) = .ok (some (h, n))) ∧
      (ChunksDoNotMatter replayed b ↔ if replayed then b ≠ [] else ¬ LongPing b) :=
  ⟨fun _ hr => (parseCommand_append hr).1, chunksDoNotMatter_iff⟩

/-- The ping of a client, in one chunk and in two. -/
theorem ping_in_two_chunks :
    readCommand false [] [[1, cmdPing, 0]] = .ok (⟨cmdPing, [], [], 0⟩, [0], []) ∧
      readCommand false [] [[1, cmdPing], [0]] =
        .error (.text (lit "snellv6: invalid request (command 2 bytes)")) := by
  decide

end

/-! ### What the server has of a request -/

section
variable {host initial : Str} {port : UInt16} {l : UInt8} {t : Str}

/-- The header of a connection whose bytes go on with `t` behind the length. -/
def connectHeader (l : UInt8) (t : Str) : Command :=
  ⟨cmdConnect, [], t.take l.toNat, uint16 ((t.drop l.toNat).take 2)⟩

lemma parseCommand_connect (ht : l.toNat + 2 ≤ t.length) :
    parseCommand ([1, cmdConnect, 0, l] ++ t) =
      .ok (some (connectHeader l t, 4 + (l.toNat + 2))) := by
  have hping : cmdConnect ≠ cmdPing := by decide
  have hknown : ¬ (cmdConnect &&& 0xFB ≠ 1 ∧ cmdConnect ≠ cmdUDP) := by decide
  have hzero : ¬ (l :: t).length < (0 : UInt8).toNat := Nat.not_lt_zero _
  have htarget : parseTarget cmdConnect [] 3 (l :: t) =
      some (connectHeader l t, 3 + 1 + l.toNat + 2) := if_neg (Nat.not_lt.mpr ht)
  simp only [cons_append, nil_append]
  rw [parseCommand, if_neg (fun hne => hne rfl), if_neg hping, if_neg hknown, parseBody,
    if_neg hzero, if_neg (by decide)]
  exact congrArg Except.ok htarget

/-- **What the server has of a request**, however it is cut into chunks: as many
bytes of the host as its length byte tells, and the rest behind them. -/
lemma readCommand_dialCommand {chunks : List Str}
    (hw : chunks.flatten = dialCommand host port initial) : ∃ left cs, readCommand false [] chunks =
        .ok (connectHeader (UInt8.ofNat host.length) (host ++ putBE 2 port.toNat ++ initial),
          left, cs) ∧
      left ++ cs.flatten =
        (host ++ putBE 2 port.toNat ++ initial).drop (host.length % 256 + 2) := by
  have hl : (UInt8.ofNat host.length).toNat = host.length % 256 := UInt8.toNat_ofNat'
  have hmod := Nat.mod_le host.length 256
  have hparse := parseCommand_connect (l := UInt8.ofNat host.length)
    (t := host ++ putBE 2 port.toNat ++ initial) (by simp [length_putBE, hl]; omega)
  have hdial : dialCommand host port initial = [1, cmdConnect, 0, UInt8.ofNat host.length] ++
      (host ++ putBE 2 port.toNat ++ initial) := by simp [dialCommand]
  have hread := forwarded_readCommand [] chunks rfl (by
    rw [nil_append, hw, hdial]
    rintro ⟨⟨u, hu⟩, -⟩
    simp [cmdPing, cmdConnect] at hu)
  rw [nil_append, hw, hdial, received, hparse] at hread
  dsimp only at hread
  rw [if_neg (by simp)] at hread
  rcases hcmd : readCommand false [] chunks with e | ⟨h, left, cs⟩
  · rw [hcmd] at hread
    cases hread
  · rw [hcmd, forwarded] at hread
    obtain ⟨rfl, hleft⟩ := Prod.mk.inj (Except.ok.inj hread)
    refine ⟨left, cs, rfl, ?_⟩
    rw [hleft, ← drop_drop, hl]
    rfl

/-- The server has the host exactly when its length fits one byte, and then it
has the port and leaves the payload. -/
lemma connectHeader_host_eq_iff :
    (connectHeader (UInt8.ofNat host.length) (host ++ putBE 2 port.toNat ++ initial)).host = host ↔
      host.length ≤ 255 := by
  have hl : (UInt8.ofNat host.length).toNat = host.length % 256 := UInt8.toNat_ofNat'
  have hmod := Nat.mod_le host.length 256
  rw [connectHeader, hl, append_assoc, take_append_of_le_length hmod]
  constructor
  · intro h
    have hlen := congrArg List.length h
    rw [length_take] at hlen
    omega
  · intro h
    rw [Nat.mod_eq_of_lt (by omega), take_length]

lemma connectHeader_port (h : host.length ≤ 255) :
    (connectHeader (UInt8.ofNat host.length) (host ++ putBE 2 port.toNat ++ initial)).port =
      port := by
  have hl : (UInt8.ofNat host.length).toNat = host.length := by
    rw [UInt8.toNat_ofNat', Nat.mod_eq_of_lt (by omega)]
  have htake : (putBE 2 port.toNat ++ initial).take 2 = putBE 2 port.toNat := by
    rw [take_append_of_le_length (by rw [length_putBE]), take_of_length_le (by rw [length_putBE])]
  rw [connectHeader, hl, append_assoc, drop_left, htake, uint16_putBE]

end

end Ntr.Snell
