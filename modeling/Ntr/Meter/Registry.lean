/-
The meter registry (`meter/meter.go`, `meter/limits.go`): one cell for each
credential, with its limits, its open connections and its switch.

* `Bills`, `Registry.idForBill`: the number of a billing identity, given out
  once;
* `Registry.openConn`, `Registry.done`: the admission of a connection and its
  release;
* `Registry.disable`, `Registry.enable`, `Registry.killConn`,
  `Registry.killIP`: the switch of a credential and the ways to cut its
  connections; each gives the closers of the connections it cut.

Token buckets, IP gates and shared units are objects that several cells may
point to, so they live in lists of their own and cells hold indexes into them.
The level of a token bucket and the byte counters are left out: no admission
depends on them.
-/
import Ntr.Go.Netip

namespace Ntr.Meter

open Go

/-- `cred.ID`. The source counts in 64 bits; as every number given out stays
in the table of bills, the counter cannot come round. -/
abbrev CredID := Nat

/-- `cred.Unmatched`: connections that did not authenticate. -/
def unmatched : CredID := 0

/-- `cred.Ambient`: the principal of a port without users. -/
def ambient : CredID := 1

/-- `cred.UserBase`: named credentials lie above it. -/
def userBase : CredID := 0x100000

/-- `meter.Limits`; zero means no limit. -/
structure Limits where
  maxConns : Int := 0
  rate : F64 := ⟨0⟩
  maxIPs : Int := 0
  deriving DecidableEq, Repr

/-- The number of a connection. -/
abbrev ConnID := UInt64

/-- Something a kill closes: the client side or the outbound side of a flow. -/
abbrev Closer := Nat

/-- `connHandle`: what its kill closes, the source address, and when data last
passed. -/
structure ConnHandle where
  kill : List Closer
  src : Addr
  lastActive : Int := 0
  deriving DecidableEq, Repr

/-! ### IP gates -/

/-- `ipGate`: a bound on the source addresses that are online at one time. The
map of reference counts is the list of the references. -/
structure IPGate where
  cap : Int
  ips : List Addr := []
  rejected : Nat := 0
  deriving DecidableEq, Repr

namespace IPGate

def acquire (g : IPGate) (ip : Addr) : IPGate × Bool :=
  if ip ∈ g.ips then ({ g with ips := ip :: g.ips }, true)
  else if g.cap ≠ 0 ∧ g.cap ≤ g.ips.dedup.length then ({ g with rejected := g.rejected + 1 }, false)
  else ({ g with ips := ip :: g.ips }, true)

def release (g : IPGate) (ip : Addr) : IPGate := { g with ips := g.ips.erase ip }

end IPGate

/-! ### Cells -/

/-- An index into one of the lists of shared objects. -/
abbrev Ref := Nat

/-- `sharedLimit`: the unit that all credentials of a user point to. -/
structure SharedLimit where
  maxConns : Int
  live : Int := 0
  rejected : Nat := 0
  rate : Option Ref := none
  ipg : Option Ref := none
  deriving DecidableEq, Repr

structure Cell where
  connsTotal : Nat := 0
  connsLive : Int := 0
  disabled : Bool := false
  live : List (ConnID × ConnHandle) := []
  maxConns : Int := 0
  rejectedConns : Nat := 0
  rate : Option Ref := none
  ipg : Option Ref := none
  shared : Option Ref := none
  deriving DecidableEq, Repr

/-- `addGuarded`: the connection is entered unless the cell is switched off. -/
def Cell.addGuarded (c : Cell) (connID : ConnID) (h : ConnHandle) : Cell × Bool :=
  if c.disabled then (c, false)
  else ({ c with live := (connID, h) :: c.live.filter (fun x => x.1 ≠ connID) }, true)

def Cell.removeLive (c : Cell) (connID : ConnID) : Cell :=
  { c with live := c.live.filter (fun x => x.1 ≠ connID) }

/-! ### Bills -/

/-- The maps `bills` and `labels` with the counter `nextID`: each billing
identity has one number, and a number has one identity. -/
structure Bills where
  bills : Str → Option CredID
  labels : CredID → Option Str
  nextID : CredID
  bills_iff : ∀ bill id, bills bill = some id ↔ labels id = some bill
  lt_nextID : ∀ id bill, labels id = some bill → id < nextID

namespace Bills

def new : Bills where
  bills _ := none
  labels _ := none
  nextID := userBase + 1
  bills_iff := by simp
  lt_nextID := by simp

/-- The next number goes to a bill that has none yet. -/
def give (b : Bills) (bill : Str) (hb : b.bills bill = none) : Bills where
  bills := Function.update b.bills bill (some b.nextID)
  labels := Function.update b.labels b.nextID (some bill)
  nextID := b.nextID + 1
  bills_iff := by
    intro bill' id
    by_cases hbill : bill' = bill
    · have hne : b.labels id ≠ some bill' := by
        intro h
        have := (b.bills_iff bill' id).mpr h
        simp [hbill, hb] at this
      by_cases hid : id = b.nextID
      · simp [hbill, hid]
      · simp [← hbill, hid, hne, Ne.symm hid]
    · have hne : b.bills bill' ≠ some b.nextID := fun h =>
        (b.lt_nextID _ bill' ((b.bills_iff bill' _).mp h)).false
      by_cases hid : id = b.nextID
      · simp [hbill, hid, hne, Ne.symm hbill]
      · simp [hbill, hid, b.bills_iff]
  lt_nextID := by
    intro id bill' h
    by_cases hid : id = b.nextID
    · exact hid ▸ Nat.lt_succ_self _
    · exact Nat.lt_succ_of_lt (b.lt_nextID id bill' (by simpa [hid] using h))

/-- The number of a bill, which gets the next one where it has none yet. -/
def idFor (b : Bills) (bill : Str) : CredID × Bills :=
  match h : b.bills bill with
  | some id => (id, b)
  | none => (b.nextID, b.give bill h)

end Bills

/-- `Registry`. A cell that was not made yet is read as the empty cell. -/
structure Registry where
  cells : CredID → Option Cell := fun _ => none
  connSeq : ConnID := 0
  idx : ConnID → Option CredID := fun _ => none
  bills : Bills := Bills.new
  rates : List F64 := []
  gates : List IPGate := []
  shares : List SharedLimit := []

namespace Registry

/-- `NewRegistry`. -/
def new : Registry := {}

/-- `cell`: the cell of `id`, the empty one where there is none yet. -/
def cell (r : Registry) (id : CredID) : Cell := (r.cells id).getD {}

/-- A change to the cell of `id`, which is made where there is none yet. -/
def modifyCell (r : Registry) (id : CredID) (f : Cell → Cell) : Registry :=
  { r with cells := Function.update r.cells id (some (f (r.cell id))) }

def idForBill (r : Registry) (bill : Str) : CredID × Registry :=
  let (id, bills) := r.bills.idFor bill
  (id, { r with bills := bills })

/-- `Bill`: the label of a number, empty where there is none. -/
def bill (r : Registry) (id : CredID) : Str := (r.bills.labels id).getD []

/-! ### Limits -/

def newRate (r : Registry) (rate : F64) : Option Ref × Registry :=
  if rate.isPos then (some r.rates.length, { r with rates := r.rates ++ [rate] }) else (none, r)

def newGate (r : Registry) (cap : Int) : Option Ref × Registry :=
  if 0 < cap then (some r.gates.length, { r with gates := r.gates ++ [{ cap := cap }] })
  else (none, r)

/-- `SetLimits`: a bucket or gate that the new limits do not ask for stays. -/
def setLimits (r : Registry) (id : CredID) (l : Limits) : Registry :=
  let (rate, r) := r.newRate l.rate
  let (ipg, r) := r.newGate l.maxIPs
  r.modifyCell id fun c =>
    { c with
      maxConns := l.maxConns
      rate := rate.or c.rate
      ipg := ipg.or c.ipg }

def setLimitsShared (r : Registry) (ids : List CredID) (l : Limits) : Registry :=
  let (rate, r) := r.newRate l.rate
  let (ipg, r) := r.newGate l.maxIPs
  let s := r.shares.length
  let r := { r with shares := r.shares ++ [{ maxConns := l.maxConns, rate := rate, ipg := ipg }] }
  ids.foldl (fun r id => r.modifyCell id fun c =>
    { c with shared := some s, rate := rate, ipg := ipg, maxConns := 0 }) r

/-! ### Connections -/

/-- The shared unit that bounds the connections of a cell, if there is one. -/
def boundingShare (r : Registry) (c : Cell) : Option (Ref × SharedLimit) :=
  match c.shared with
  | none => none
  | some s =>
    match r.shares[s]? with
    | some sh => if 0 < sh.maxConns then some (s, sh) else none
    | none => none

def tryAcquireConn (r : Registry) (id : CredID) : Registry × Bool :=
  let c := r.cell id
  match r.boundingShare c with
  | some (s, sh) =>
    if sh.maxConns ≤ sh.live then
      ({ r with shares := r.shares.set s { sh with rejected := sh.rejected + 1 } }.modifyCell id
        fun c => { c with rejectedConns := c.rejectedConns + 1 }, false)
    else
      ({ r with shares := r.shares.set s { sh with live := sh.live + 1 } }.modifyCell id
        fun c => { c with connsLive := c.connsLive + 1 }, true)
  | none =>
    if c.maxConns ≠ 0 ∧ c.maxConns ≤ c.connsLive then
      (r.modifyCell id fun c => { c with rejectedConns := c.rejectedConns + 1 }, false)
    else (r.modifyCell id fun c => { c with connsLive := c.connsLive + 1 }, true)

def releaseConn (r : Registry) (id : CredID) : Registry :=
  let r := match r.boundingShare (r.cell id) with
    | some (s, sh) => { r with shares := r.shares.set s { sh with live := sh.live - 1 } }
    | none => r
  r.modifyCell id fun c => { c with connsLive := c.connsLive - 1 }

/-- `c.ipg.acquire(src)`, where the cell has a gate. -/
def acquireIP (r : Registry) (id : CredID) (src : Addr) : Registry × Bool :=
  match (r.cell id).ipg with
  | none => (r, true)
  | some g =>
    match r.gates[g]? with
    | none => (r, true)
    | some gate =>
      let (gate, ok) := gate.acquire src
      ({ r with gates := r.gates.set g gate }, ok)

/-- `c.ipg.release(src)`, where the cell has a gate. -/
def releaseIP (r : Registry) (id : CredID) (src : Addr) : Registry :=
  match (r.cell id).ipg with
  | none => r
  | some g => { r with gates := r.gates.modify g (fun gate => gate.release src) }

/-- `Open`: the number of the admitted connection, `none` where it is refused.
`now` is the time of the call. -/
def openConn (r : Registry) (id : CredID) (src : Addr) (kill : List Closer) (now : Int) :
    Registry × Option ConnID :=
  let (r, ok) := r.acquireIP id src
  if !ok then (r, none)
  else
    let (r, ok) := r.tryAcquireConn id
    if !ok then (r.releaseIP id src, none)
    else
      let connID := r.connSeq + 1
      let r := { r with connSeq := connID }
      let (c, ok) := (r.cell id).addGuarded connID { kill := kill, src := src, lastActive := now }
      if !ok then ((r.releaseConn id).releaseIP id src, none)
      else
        let r := r.modifyCell id fun _ => { c with connsTotal := c.connsTotal + 1 }
        ({ r with idx := Function.update r.idx connID (some id) }, some connID)

/-- The release that `Open` returns. -/
def done (r : Registry) (id : CredID) (src : Addr) (connID : ConnID) : Registry :=
  let r := (r.releaseConn id).releaseIP id src
  let r := r.modifyCell id fun c => c.removeLive connID
  { r with idx := Function.update r.idx connID none }

/-! ### Switches -/

/-- `Disable`: the closers of the connections that were open, `none` where the
credential has no cell. -/
def disable (r : Registry) (id : CredID) : Registry × Option (List Closer) :=
  match r.cells id with
  | none => (r, none)
  | some c =>
    (r.modifyCell id fun c => { c with disabled := true, live := [] },
      some (c.live.flatMap fun x => x.2.kill))

def enable (r : Registry) (id : CredID) : Registry × Bool :=
  match r.cells id with
  | none => (r, false)
  | some _ => (r.modifyCell id fun c => { c with disabled := false }, true)

/-- `KillConn`: the closers of the connection, where it is still open. -/
def killConn (r : Registry) (connID : ConnID) : Registry × List Closer :=
  match r.idx connID with
  | none => (r, [])
  | some id =>
    let kills := ((r.cell id).live.filter fun x => x.1 = connID).flatMap fun x => x.2.kill
    (r.modifyCell id fun c => c.removeLive connID, kills)

/-- `KillIP`: the closers of the connections of `id` from `ip`. -/
def killIP (r : Registry) (id : CredID) (ip : Addr) : Registry × List Closer :=
  match r.cells id with
  | none => (r, [])
  | some c =>
    (r.modifyCell id fun c => { c with live := c.live.filter fun x => x.2.src ≠ ip },
      (c.live.filter fun x => x.2.src = ip).flatMap fun x => x.2.kill)

end Registry

end Ntr.Meter
