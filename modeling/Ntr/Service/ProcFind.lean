/-
The socket behind a connection (`service/procfind_linux.go`): the tables of the kernel are
searched for the local end of the process that opened it.

* `attribution_iff`: the inode is of a row that holds the source exactly when a row of the port has
  the address, or the first has one that stands for all.
-/
import Ntr.Go.Encoding

namespace Ntr.Service.ProcFind

open Go List

/-! ### The tables -/

def flush (cur : Str) : List Str := if cur = [] then [] else [cur]

/-- The loop of `strings.Fields`, with the field that is being read. -/
def fieldsFrom : Nat → Str → Str → List Str
  | 0, cur, _ => flush cur
  | n + 1, cur, s =>
    match spaces.find? (·.isPrefixOf s), s with
    | some w, _ => flush cur ++ fieldsFrom n [] (s.drop w.length)
    | none, [] => flush cur
    | none, c :: t => fieldsFrom n (cur ++ [c]) t

/-- `strings.Fields`: every round takes a byte. -/
def fields (s : Str) : List Str := fieldsFrom (s.length + 1) [] s

def hexValue (c : UInt8) : Option Nat :=
  if 0x30 ≤ c ∧ c ≤ 0x39 then some (c.toNat - 0x30)
  else if 0x61 ≤ c ∧ c ≤ 0x66 then some (c.toNat - 0x57)
  else if 0x41 ≤ c ∧ c ≤ 0x46 then some (c.toNat - 0x37)
  else none

/-- `hex.DecodeString`. -/
def decodeHex : Str → Option Str
  | [] => some []
  | [_] => none
  | a :: b :: s => do
    let hi ← hexValue a
    let lo ← hexValue b
    let rest ← decodeHex s
    pure (UInt8.ofNat (16 * hi + lo) :: rest)

/-- `strconv.ParseUint` in base 16 for sixteen bits. -/
def parsePort (s : Str) : Option UInt16 := do
  let digits ← s.mapM hexValue
  let n := digits.foldl (fun n d => 16 * n + d) 0
  if s = [] ∨ 65535 < n then none else pure (UInt16.ofNat n)

/-- `parseHexIP`: words of four bytes, each the other way round. -/
def parseHexIP (s : Str) : Option Addr :=
  match decodeHex s with
  | some [a, b, c, d] => some (addrFrom4 [d, c, b, a])
  | some [a, b, c, d, e, f, g, h, i, j, k, l, m, n, o, p] =>
    some (addrFrom16 [d, c, b, a, h, g, f, e, l, k, j, i, p, o, n, m]).unmap
  | _ => none

def parseHexAddr (s : Str) : Option (Addr × UInt16) := do
  let port ← afterByte 0x3A s
  let ip ← parseHexIP (s.takeWhile (· ≠ 0x3A))
  let port ← parsePort port
  pure (ip, port)

/-- A line of a table, as far as the search reads it. -/
structure Row where
  ip : Addr
  port : UInt16
  inode : Str
  deriving DecidableEq

/-- The row of a line: ten fields, of which the second is the local address and the tenth the
inode. -/
def rowOf (line : Str) : Option Row :=
  match fields line with
  | _ :: addr :: _ :: _ :: _ :: _ :: _ :: _ :: _ :: inode :: _ =>
    (parseHexAddr addr).map fun x => ⟨x.1, x.2, inode⟩
  | _ => none

/-- The rows of the tables, without their headers; a table that cannot be read has none. -/
def rows (files : List (Option Str)) : List Row :=
  files.reduceOption.flatMap fun data => ((data.splitOn 0x0A).drop 1).filterMap rowOf

/-! ### The search -/

/-- The loops of `findSocketInode`, with the inode of the first row of the port. -/
def search (ip : Addr) (port : UInt16) : Str → List Row → Option Str
  | portOnly, [] => if portOnly ≠ [] then some portOnly else none
  | portOnly, r :: rs =>
    if r.port ≠ port then search ip port portOnly rs
    else if ip.isValid ∧ r.ip = ip then some r.inode
    else search ip port (if portOnly = [] then r.inode else portOnly) rs

def findSocketInode (files : List (Option Str)) (src : AddrPort) : Option Str :=
  search src.addr.unmap src.port [] (rows files)

/-- The address that stands for all addresses of its family. -/
def IsUnspecified (a : Addr) : Prop := a = .v4 0 ∨ a = .v6 0 []

/-- The row is a local end of the source: its port, and its address or all. -/
def Row.Holds (r : Row) (src : AddrPort) : Prop :=
  r.port = src.port ∧ (r.ip = src.addr.unmap ∨ IsUnspecified r.ip)

/-- **The attribution is sound**: an inode that is found is of a row that holds the source. -/
def Sound (files : List (Option Str)) (src : AddrPort) : Prop :=
  ∀ inode, findSocketInode files src = some inode → ∃ r ∈ rows files, r.inode = inode ∧ r.Holds src

/-! ### What is found -/

lemma ne_nil_of_mem_flush {f cur : Str} (h : f ∈ flush cur) : f ≠ [] := by
  rw [flush] at h
  split_ifs at h with hcur
  · cases h
  · rwa [mem_singleton.mp h]

lemma ne_nil_of_mem_fieldsFrom {f : Str} {n : Nat} {cur s : Str} (h : f ∈ fieldsFrom n cur s) :
    f ≠ [] := by
  induction n generalizing cur s with
  | zero => exact ne_nil_of_mem_flush h
  | succ n ih =>
    unfold fieldsFrom at h
    split at h
    · exact (mem_append.mp h).elim ne_nil_of_mem_flush ih
    · exact ne_nil_of_mem_flush h
    · exact ih h

lemma isValid_of_parseHexIP {s : Str} {a : Addr} (h : parseHexIP s = some a) :
    a.isValid = true := by
  rw [parseHexIP] at h
  split at h
  · obtain rfl := Option.some.inj h
    rfl
  · obtain rfl := Option.some.inj h
    rw [addrFrom16, Addr.unmap]
    split_ifs <;> rfl
  · cases h

/-- A row has an address and an inode. -/
lemma row_spec {files : List (Option Str)} {r : Row} (h : r ∈ rows files) :
    r.ip.isValid = true ∧ r.inode ≠ [] := by
  obtain ⟨data, -, hr⟩ := mem_flatMap.mp h
  obtain ⟨line, -, hline⟩ := mem_filterMap.mp hr
  rw [rowOf] at hline
  split at hline
  · next addr _ _ _ _ _ _ _ inode _ hfields =>
    obtain ⟨x, hx, rfl⟩ := Option.map_eq_some_iff.mp hline
    rw [parseHexAddr, Option.bind_eq_bind, Option.bind_eq_some_iff] at hx
    obtain ⟨p, -, hx⟩ := hx
    obtain ⟨ip, hip, hx⟩ := Option.bind_eq_some_iff.mp hx
    obtain ⟨port, -, hx⟩ := Option.bind_eq_some_iff.mp hx
    obtain rfl := Option.some.inj hx
    have hmem : inode ∈ fields line := by simp [hfields]
    exact ⟨isValid_of_parseHexIP hip, ne_nil_of_mem_fieldsFrom hmem⟩
  · cases hline

def ofPort (port : UInt16) (rs : List Row) : List Row := rs.filter (·.port = port)

/-- **What the search finds**: the first row of the port with the address, or else the first of
the port. -/
lemma search_eq {ip : Addr} {port : UInt16} {rs : List Row}
    (h : ∀ r ∈ rs, r.ip.isValid = true ∧ r.inode ≠ []) (portOnly : Str) :
    search ip port portOnly rs =
      match (ofPort port rs).find? (·.ip = ip) with
      | some r => some r.inode
      | none => if portOnly ≠ [] then some portOnly else (ofPort port rs).head?.map Row.inode := by
  induction rs generalizing portOnly with
  | nil => rfl
  | cons r rs ih =>
    have ih := ih fun r' hr => h r' (mem_cons_of_mem r hr)
    obtain ⟨hvalid, hinode⟩ := h r mem_cons_self
    rw [search]
    by_cases hport : r.port = port
    · have hof : ofPort port (r :: rs) = r :: ofPort port rs :=
        filter_cons_of_pos (decide_eq_true hport)
      rw [if_neg (not_not.mpr hport), hof, find?_cons]
      by_cases hip : r.ip = ip
      · rw [if_pos ⟨hip ▸ hvalid, hip⟩, decide_eq_true hip]
      · rw [if_neg fun hx => hip hx.2, decide_eq_false hip, ih]
        cases (ofPort port rs).find? (·.ip = ip) with
        | some r' => rfl
        | none =>
          by_cases hfirst : portOnly = []
          · simp [hfirst, hinode]
          · simp [hfirst]
    · have hof : ofPort port (r :: rs) = ofPort port rs :=
        filter_cons_of_neg (by rwa [decide_eq_true_iff])
      rw [if_pos hport, hof, ih]

lemma mem_ofPort {port : UInt16} {rs : List Row} {r : Row} :
    r ∈ ofPort port rs ↔ r ∈ rs ∧ r.port = port := by
  rw [ofPort, mem_filter, decide_eq_true_iff]

/-- **When the attribution is sound**: a row of the port has the address, or the first of the
port is of a socket that is bound to all addresses. -/
theorem attribution_iff (files : List (Option Str)) (src : AddrPort) : Sound files src ↔
    (∃ r ∈ rows files, r.port = src.port ∧ r.ip = src.addr.unmap) ∨
      ∀ first, (ofPort src.port (rows files)).head? = some first →
        ∃ r ∈ rows files, r.port = src.port ∧ r.inode = first.inode ∧ IsUnspecified r.ip := by
  rw [Sound, findSocketInode, search_eq fun r hr => row_spec hr]
  cases hfind : (ofPort src.port (rows files)).find? (·.ip = src.addr.unmap) with
  | some r =>
    -- A row with the address comes before any other.
    have hip : r.ip = src.addr.unmap := by simpa using find?_some hfind
    obtain ⟨hmem, hport⟩ := mem_ofPort.mp (mem_of_find?_eq_some hfind)
    refine iff_of_true ?_ (.inl ⟨r, hmem, hport, hip⟩)
    rintro inode hinode
    exact ⟨r, hmem, Option.some.inj hinode, hport, .inl hip⟩
  | none =>
    have hnone : ∀ r ∈ rows files, r.port = src.port → r.ip ≠ src.addr.unmap := by
      intro r hr hport hip
      exact absurd (decide_eq_true hip) (find?_eq_none.mp hfind r (mem_ofPort.mpr ⟨hr, hport⟩))
    constructor
    · intro h
      refine .inr fun first hfirst => ?_
      obtain ⟨r, hr, hinode, hport, hip⟩ := h first.inode (by simp [hfirst])
      exact ⟨r, hr, hport, hinode, hip.resolve_left (hnone r hr hport)⟩
    · rintro (⟨r, hr, hport, hip⟩ | h) inode hinode
      · exact absurd hip (hnone r hr hport)
      · obtain ⟨first, hfirst, rfl⟩ : ∃ first,
            (ofPort src.port (rows files)).head? = some first ∧ first.inode = inode := by
          simpa using hinode
        obtain ⟨r, hr, hport, hinode, hip⟩ := h first hfirst
        exact ⟨r, hr, hinode, hport, .inr hip⟩

/-- One listener on `127.0.0.1:8080`. -/
def loopbackTable : Str :=
  lit "  sl  local_address rem_address   st tx_queue rx_queue tr tm->when retrnsmt   uid\n" ++
  lit "   0: 0100007F:1F90 00000000:0000 0A 00000000:00000000 00:00000000 00000000  1000 0 4711 1"

/-- **A connection from another host** at port 8080 is taken for one of the listener on the
loopback address. -/
theorem other_host_attributed :
    findSocketInode [some loopbackTable] ⟨.v4 0x0A000009, 8080⟩ = some (lit "4711") ∧
      rows [some loopbackTable] = [⟨.v4 0x7F000001, 8080, lit "4711"⟩] ∧
      ¬ Sound [some loopbackTable] ⟨.v4 0x0A000009, 8080⟩ := by
  have hrows : rows [some loopbackTable] = [⟨.v4 0x7F000001, 8080, lit "4711"⟩] := by
    decide +kernel
  refine ⟨by decide +kernel, hrows, fun h => ?_⟩
  obtain ⟨r, hr, -, -, hip⟩ := h (lit "4711") (by decide +kernel)
  rw [hrows, mem_singleton] at hr
  rw [hr] at hip
  revert hip
  simp only [IsUnspecified]
  decide +kernel

end Ntr.Service.ProcFind
