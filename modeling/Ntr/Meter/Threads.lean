/-
The calls of the meter registry on goroutines of their own
(`meter/meter.go`): one lock section, one atomic operation or one `go`
statement of one call is one step, and the steps of different calls come in
any order.

* `exec`: the step of one call on the registry. `Open`, its `done`,
  `Disable`, `Enable`, `KillConn`, `KillIP`, `evictIdle` and `ReapIdle` are
  cut where the source takes or leaves a lock;
* `State`, `Action`, `State.act`, `Step`: the registry, the calls, the
  goroutines started for kills, and what has happened so far;
* `alone_open`, `alone_done`, `alone_disable`, `alone_enable`,
  `alone_killConn`, `alone_killIP`: a call that nobody comes in between does
  what the call does as a whole.

A connection is named by the call of `Open` that made it, and so is its kill
function. The counters behind `tryAcquireConn` and the IP gates are taken as
one step each: nothing that is killed depends on them.
-/
import Ntr.Meter.Live

namespace Ntr.Meter

open Go Registry

/-! ### Lock sections -/

/-- `cell`: the cell of `id` is made where there is none yet. -/
def Registry.makeCell (r : Registry) (id : CredID) : Registry :=
  match r.cells id with
  | some _ => r
  | none => r.modifyCell id fun c => c

/-- The connections of a cell that meet `p` are taken out under the lock; their
kill functions are called after it. -/
def Cell.cut (c : Cell) (p : ConnID × ConnHandle → Bool) : Cell × List Closer :=
  ({ c with live := c.live.filter fun x => !p x }, (c.live.filter p).flatMap fun x => x.2.kill)

/-- The lock section of `killAll`. -/
def Cell.killAll (c : Cell) : Cell × List Closer := c.cut fun _ => true

/-- The lock section of `KillConn`. -/
def Cell.killConn (c : Cell) (connID : ConnID) : Cell × List Closer := c.cut fun x => x.1 = connID

/-- The lock section of `KillIP`. -/
def Cell.killIP (c : Cell) (ip : Addr) : Cell × List Closer := c.cut fun x => x.2.src = ip

/-- A lock section on the cell of `id`. -/
def Registry.within (r : Registry) (id : CredID) (f : Cell → Cell × List Closer) :
    Registry × List Closer :=
  (r.modifyCell id fun c => (f c).1, (f (r.cell id)).2)

/-- `touch`: the handle notes that data has passed. -/
def Registry.touch (r : Registry) (kill : List Closer) (now : Int) : Registry :=
  { r with
    cells := fun id => (r.cells id).map fun c =>
      { c with live := c.live.map fun x =>
        (x.1, if x.2.kill = kill then { x.2 with lastActive := now } else x.2) } }

namespace Threads

/-- A call, by its place in the order in which the calls were made. -/
abbrev CallID := Nat

/-- An entry of the list of candidates that `evictIdle` and `ReapIdle` make. -/
structure Ent where
  cell : CredID
  id : ConnID
  last : Int
  kill : List Closer
  deriving DecidableEq, Repr

/-- `evictIdle(n)`, and `ReapIdle` with the time before which a connection is
idle: two selections over one skeleton. -/
inductive Sweep where
  | evict (n : Int)
  | reap (cutoff : Int)
  deriving DecidableEq, Repr

namespace Sweep

def wants : Sweep → ConnHandle → Bool
  | .evict _, _ => true
  | .reap cutoff, h => h.lastActive < cutoff

/-- The loop over the candidates ends before the next of them. -/
def enough : Sweep → Nat → Bool
  | .evict n, killed => n ≤ killed
  | .reap _, _ => false

end Sweep

/-- Where a call stands. -/
inductive Pc where
  -- `Open`; `admitted` and `returned` are its two ends
  | openCell (id : CredID) (src : Addr)
  | openIP (id : CredID) (src : Addr)
  | openConn (id : CredID) (src : Addr)
  | openNumber (id : CredID) (src : Addr)
  | openAdd (id : CredID) (src : Addr) (connID : ConnID)
  | openTotal (id : CredID) (src : Addr) (connID : ConnID)
  | openIdx (id : CredID) (src : Addr) (connID : ConnID)
  | admitted (id : CredID) (src : Addr) (connID : ConnID)
  | refuseConn (id : CredID) (src : Addr)
  | refuseIP (id : CredID) (src : Addr)
  -- the `done` that `Open` returned
  | doneConn (id : CredID) (src : Addr) (connID : ConnID)
  | doneIP (id : CredID) (src : Addr) (connID : ConnID)
  | doneLive (id : CredID) (connID : ConnID)
  | doneIdx (connID : ConnID)
  -- `Disable`, which ends in `disabled`
  | disableCell (id : CredID)
  | disableStore (id : CredID)
  | disableKill (id : CredID)
  | disableReturn (id : CredID)
  | disabled (id : CredID)
  -- `Enable`
  | enableCell (id : CredID)
  | enableStore (id : CredID)
  -- `KillConn`, `KillIP`
  | killConnIdx (connID : ConnID)
  | killConnLive (id : CredID) (connID : ConnID)
  | killIPCell (id : CredID) (ip : Addr)
  | killIPLive (id : CredID) (ip : Addr)
  -- `evictIdle`, `ReapIdle`
  | sweepCells (w : Sweep)
  | sweepLive (w : Sweep) (cells : List CredID) (ents : List Ent)
  | sweepSort (w : Sweep) (ents : List Ent)
  | sweepKill (w : Sweep) (killed : Nat) (ents : List Ent)
  -- the `go` statements that come before the next step
  | going (kills : List Closer) (next : Pc)
  | returned
  deriving DecidableEq, Repr

inductive Event where
  /-- `connSeq.Add(1)` gave the call this number. -/
  | numbered (t : CallID) (connID : ConnID)
  /-- A `done` took the number out of the cell. -/
  | released (id : CredID) (connID : ConnID)
  /-- The call of `Disable` set the switch. -/
  | off (t : CallID) (id : CredID)
  /-- The call of `Disable` returned. -/
  | left (t : CallID) (id : CredID)
  /-- An `Enable` set the switch back. -/
  | on (id : CredID)
  /-- The kill function of the connection was invoked. -/
  | killed (t : CallID)
  deriving DecidableEq, Repr

/-- What a step leaves to the outside: the clock, the order in which a map is
ranged over, and the order of equal elements in a sort. -/
inductive Choice where
  | clock (now : Int)
  | listing (cells : List CredID)
  | sorted (ents : List Ent)
  deriving DecidableEq, Repr

/-! ### One step of a call -/

def candidates (r : Registry) (w : Sweep) (id : CredID) : List Ent :=
  ((r.live id).filter fun x => w.wants x.2).map fun x => ⟨id, x.1, x.2.lastActive, x.2.kill⟩

/-- One turn of the loop over the candidates: the candidate is taken out if its
number is still entered, and then its kill function, as it was read with the
candidates, is called. -/
def sweepTurn (r : Registry) (w : Sweep) (killed : Nat) (e : Ent) (ents : List Ent) :
    Registry × Pc :=
  if ((r.live e.cell).any fun x => x.1 = e.id) then
    (r.modifyCell e.cell fun c => c.removeLive e.id, .going e.kill (.sweepKill w (killed + 1) ents))
  else (r, .sweepKill w killed ents)

/-- The next step of call `t`: the registry, where the call stands after it,
and what is noted; `none` where the call has ended, or the choice is not one
that this step has. -/
def exec (t : CallID) (x : Choice) (r : Registry) : Pc → Option (Registry × Pc × List Event)
  | .openCell id src => some (r.makeCell id, .openIP id src, [])
  | .openIP id src =>
    let (r, ok) := r.acquireIP id src
    some (r, if ok then .openConn id src else .returned, [])
  | .openConn id src =>
    let (r, ok) := r.tryAcquireConn id
    some (r, if ok then .openNumber id src else .refuseIP id src, [])
  | .openNumber id src =>
    some ({ r with connSeq := r.connSeq + 1 }, .openAdd id src (r.connSeq + 1),
      [.numbered t (r.connSeq + 1)])
  | .openAdd id src connID =>
    match x with
    | .clock now =>
      let (c, ok) := (r.cell id).addGuarded connID ⟨[t], src, now⟩
      if ok then some (r.modifyCell id fun _ => c, .openTotal id src connID, [])
      else some (r, .refuseConn id src, [])
    | _ => none
  | .openTotal id src connID =>
    some (r.modifyCell id fun c => { c with connsTotal := c.connsTotal + 1 },
      .openIdx id src connID, [])
  | .openIdx id src connID =>
    some ({ r with idx := Function.update r.idx connID (some id) }, .admitted id src connID, [])
  | .admitted _ _ _ => none
  | .refuseConn id src => some (r.releaseConn id, .refuseIP id src, [])
  | .refuseIP id src => some (r.releaseIP id src, .returned, [])
  | .doneConn id src connID => some (r.releaseConn id, .doneIP id src connID, [])
  | .doneIP id src connID => some (r.releaseIP id src, .doneLive id connID, [])
  | .doneLive id connID =>
    some (r.modifyCell id fun c => c.removeLive connID, .doneIdx connID, [.released id connID])
  | .doneIdx connID => some ({ r with idx := Function.update r.idx connID none }, .returned, [])
  | .disableCell id =>
    some (r, if (r.cells id).isSome then .disableStore id else .returned, [])
  | .disableStore id =>
    some (r.modifyCell id fun c => { c with disabled := true }, .disableKill id, [.off t id])
  | .disableKill id =>
    let (r, kills) := r.within id Cell.killAll
    some (r, .going kills (.disableReturn id), [])
  | .disableReturn id => some (r, .disabled id, [.left t id])
  | .disabled _ => none
  | .enableCell id => some (r, if (r.cells id).isSome then .enableStore id else .returned, [])
  | .enableStore id =>
    some (r.modifyCell id fun c => { c with disabled := false }, .returned, [.on id])
  | .killConnIdx connID =>
    match r.idx connID with
    | none => some (r, .returned, [])
    | some id => some (r, .killConnLive id connID, [])
  | .killConnLive id connID =>
    let (r, kills) := r.within id fun c => c.killConn connID
    some (r, .going kills .returned, [])
  | .killIPCell id ip => some (r, if (r.cells id).isSome then .killIPLive id ip else .returned, [])
  | .killIPLive id ip =>
    let (r, kills) := r.within id fun c => c.killIP ip
    some (r, .going kills .returned, [])
  | .sweepCells w =>
    match x with
    | .listing cells => some (r, .sweepLive w cells [], [])
    | _ => none
  | .sweepLive w [] ents =>
    match w with
    | .evict _ => some (r, .sweepSort w ents, [])
    | .reap _ => some (r, .sweepKill w 0 ents, [])
  | .sweepLive w (id :: cells) ents =>
    some (r, .sweepLive w cells (ents ++ candidates r w id), [])
  | .sweepSort w ents =>
    match x with
    | .sorted ents' =>
      if ents'.Perm ents ∧ ents'.Pairwise fun a b => a.last ≤ b.last then
        some (r, .sweepKill w 0 ents', [])
      else none
    | _ => none
  | .sweepKill _ _ [] => some (r, .returned, [])
  | .sweepKill w killed (e :: ents) =>
    if w.enough killed then some (r, .returned, [])
    else
      let (r, pc) := sweepTurn r w killed e ents
      some (r, pc, [])
  | .going [] next => some (r, next, [])
  | .going (_ :: _) _ => none
  | .returned => none

/-! ### The system -/

/-- The registry, the calls made so far, the goroutines that were started for a
kill and have not run yet, and what was noted, the latest first. -/
structure State where
  reg : Registry
  calls : List Pc := []
  spawned : List Closer := []
  log : List Event := []

inductive Action where
  /-- A call is made. -/
  | call (pc : Pc)
  /-- A call does its next step. -/
  | step (t : CallID) (x : Choice)
  /-- A call starts the goroutine of its next kill. -/
  | go (t : CallID)
  /-- A goroutine invokes its kill function. -/
  | invoke (k : Closer)
  | touch (t : CallID) (now : Int)
  deriving DecidableEq, Repr

namespace State

/-- The calls that can be made: `done` for an admitted connection, the others
at any time. `evictIdle` without a number and `ReapIdle` without a time do
nothing. -/
def mayCall (s : State) : Pc → Bool
  | .openCell _ _ => true
  | .doneConn id src connID => s.calls.contains (.admitted id src connID)
  | .disableCell _ => true
  | .enableCell _ => true
  | .killConnIdx _ => true
  | .killIPCell _ _ => true
  | .sweepCells (.evict n) => 0 < n
  | .sweepCells (.reap _) => true
  | _ => false

/-- The state after an action, `none` where it cannot be taken. -/
def act (s : State) : Action → Option State
  | .call pc => if s.mayCall pc then some { s with calls := s.calls ++ [pc] } else none
  | .step t x =>
    match s.calls[t]? with
    | none => none
    | some pc =>
      match exec t x s.reg pc with
      | none => none
      | some (r, pc', evs) =>
        some { s with reg := r, calls := s.calls.set t pc', log := evs ++ s.log }
  | .go t =>
    match s.calls[t]? with
    | some (.going (k :: ks) next) =>
      some { s with calls := s.calls.set t (.going ks next), spawned := k :: s.spawned }
    | _ => none
  | .invoke k =>
    if k ∈ s.spawned then
      some { s with spawned := s.spawned.erase k, log := .killed k :: s.log }
    else none
  | .touch t now => some { s with reg := s.reg.touch [t] now }

/-- The map of cells is ranged over in some order: each cell that was made is
met once. -/
def Ranges (s : State) : Action → Prop
  | .step _ (.listing cells) => cells.Nodup ∧ ∀ id, id ∈ cells ↔ (s.reg.cells id).isSome
  | _ => True

end State

def Step (s s' : State) : Prop := ∃ a, s.Ranges a ∧ s.act a = some s'

abbrev Reaches : State → State → Prop := Relation.ReflTransGen Step

/-! ### A call alone -/

/-- The call does one step after the other, with nobody in between. -/
inductive Alone (t : CallID) (now : Int) : Registry → Pc → Registry → Pc → Prop where
  | refl (r : Registry) (pc : Pc) : Alone t now r pc r pc
  | step {r r' r'' : Registry} {pc pc' pc'' : Pc} {evs : List Event}
      (h : exec t (.clock now) r pc = some (r', pc', evs)) (hs : Alone t now r' pc' r'' pc'') :
      Alone t now r pc r'' pc''

lemma tryAcquireConn_makeCell (r : Registry) (id : CredID) :
    (r.makeCell id).tryAcquireConn id = r.tryAcquireConn id := by
  unfold makeCell
  cases h : r.cells id with
  | some c => rfl
  | none =>
    simp [tryAcquireConn, boundingShare, modifyCell, cell, h]

lemma acquireIP_makeCell (r : Registry) (id : CredID) (src : Addr) :
    (r.makeCell id).acquireIP id src =
      ((r.acquireIP id src).1.makeCell id, (r.acquireIP id src).2) := by
  unfold makeCell
  cases h : r.cells id with
  | some c =>
    have hsome : ((r.acquireIP id src).1.cells id) = some c := by
      unfold acquireIP
      split
      · exact h
      · split <;> exact h
    rw [hsome]
  | none => simp [acquireIP, modifyCell, cell, h]

lemma makeCell_of_refused {r r₁ : Registry} {id : CredID} {src : Addr}
    (h : r.acquireIP id src = (r₁, false)) : r₁.makeCell id = r₁ := by
  unfold makeCell
  cases hc : r₁.cells id with
  | some c => rfl
  | none =>
    have hcell : r.cell id = {} := by
      have hcells : r₁.cells = r.cells := by
        have hr : r₁ = (r.acquireIP id src).1 := (congrArg Prod.fst h).symm
        rw [hr, acquireIP]
        split
        · rfl
        · split <;> rfl
      rw [cell, ← hcells, hc]
      rfl
    simp [acquireIP, hcell] at h

/-- How `Open` ends. -/
def opened (id : CredID) (src : Addr) : Option ConnID → Pc
  | some connID => .admitted id src connID
  | none => .returned

/-- **`Open` alone** is `Registry.openConn`. -/
lemma alone_open (t : CallID) (now : Int) (r : Registry) (id : CredID) (src : Addr) :
    Alone t now r (.openCell id src) (r.openConn id src [t] now).1
      (opened id src (r.openConn id src [t] now).2) := by
  obtain ⟨⟨r₁, ok₁⟩, hip⟩ : ∃ y, r.acquireIP id src = y := ⟨_, rfl⟩
  refine .step rfl (.step (by rw [exec, acquireIP_makeCell, hip]) ?_)
  simp only [openConn, hip]
  cases ok₁ with
  | false =>
    rw [makeCell_of_refused hip]
    exact .refl _ _
  | true =>
    obtain ⟨⟨r₂, ok₂⟩, hconn⟩ : ∃ y, r₁.tryAcquireConn id = y := ⟨_, rfl⟩
    refine .step (by rw [if_pos rfl, exec, tryAcquireConn_makeCell, hconn]) ?_
    simp only [hconn]
    cases ok₂ with
    | false => exact .step rfl (.refl _ _)
    | true =>
      refine .step rfl ?_
      -- the last test is under the lock of the cell
      have hcell : cell { r₂ with connSeq := r₂.connSeq + 1 } id = r₂.cell id := rfl
      obtain ⟨⟨c, ok₃⟩, hadd⟩ :
          ∃ y, (r₂.cell id).addGuarded (r₂.connSeq + 1) ⟨[t], src, now⟩ = y := ⟨_, rfl⟩
      simp only [hcell, hadd]
      cases ok₃ with
      | false => exact .step (by rw [exec, hcell, hadd]; rfl) (.step rfl (.step rfl (.refl _ _)))
      | true =>
        refine .step (by rw [exec, hcell, hadd]; rfl) (.step rfl (.step rfl ?_))
        simp only [modifyCell, cell, Function.update_self, Function.update_idem]
        exact .refl _ _

/-- **`done` alone** is `Registry.done`. -/
lemma alone_done (t : CallID) (now : Int) (r : Registry) (id : CredID) (src : Addr)
    (connID : ConnID) : Alone t now r (.doneConn id src connID) (r.done id src connID) .returned :=
  .step rfl (.step rfl (.step rfl (.step rfl (.refl _ _))))

/-- **`Disable` alone** is `Registry.disable`, up to the `go` statements. -/
lemma alone_disable (t : CallID) (now : Int) {r : Registry} {id : CredID} {kills : List Closer}
    (h : (r.disable id).2 = some kills) :
    Alone t now r (.disableCell id) (r.disable id).1 (.going kills (.disableReturn id)) := by
  unfold disable at h ⊢
  cases hc : r.cells id with
  | none => simp [hc] at h
  | some c =>
    have hcell : r.cell id = c := by rw [cell, hc]; rfl
    simp only [hc, Option.some.injEq] at h
    subst h
    refine .step (by rw [exec, hc]) (.step rfl (.step rfl ?_))
    convert Alone.refl _ _ using 1 <;>
      simp [modifyCell, cell, Cell.killAll, Cell.cut, hc]

/-- **`Enable` alone** is `Registry.enable`. -/
lemma alone_enable (t : CallID) (now : Int) (r : Registry) (id : CredID) :
    Alone t now r (.enableCell id) (r.enable id).1 .returned := by
  unfold enable
  cases hc : r.cells id with
  | none => exact .step (by rw [exec, hc]; rfl) (.refl _ _)
  | some c => exact .step (by rw [exec, hc]) (.step rfl (.refl _ _))

/-- **`KillConn` alone** is `Registry.killConn`, up to the `go` statement. -/
lemma alone_killConn (t : CallID) (now : Int) (r : Registry) (connID : ConnID) :
    ∃ pc, Alone t now r (.killConnIdx connID) (r.killConn connID).1 pc ∧
      (pc = .going (r.killConn connID).2 .returned ∨
        pc = .returned ∧ (r.killConn connID).2 = []) := by
  unfold killConn
  cases hi : r.idx connID with
  | none => exact ⟨_, .step (by rw [exec, hi]) (.refl _ _), .inr ⟨rfl, rfl⟩⟩
  | some id =>
    refine ⟨_, .step (by rw [exec, hi]) (.step rfl ?_), .inl rfl⟩
    convert Alone.refl _ _ using 1 <;> simp [Cell.killConn, Cell.cut, Cell.removeLive]

/-- **`KillIP` alone** is `Registry.killIP`, up to the `go` statements. -/
lemma alone_killIP (t : CallID) (now : Int) (r : Registry) (id : CredID) (ip : Addr) :
    ∃ pc, Alone t now r (.killIPCell id ip) (r.killIP id ip).1 pc ∧
      (pc = .going (r.killIP id ip).2 .returned ∨ pc = .returned ∧ (r.killIP id ip).2 = []) := by
  unfold killIP
  cases hc : r.cells id with
  | none => exact ⟨_, .step (by rw [exec, hc]; rfl) (.refl _ _), .inr ⟨rfl, rfl⟩⟩
  | some c =>
    refine ⟨_, .step (by rw [exec, hc]) (.step rfl ?_), .inl rfl⟩
    convert Alone.refl _ _ using 1 <;> simp [Cell.killIP, Cell.cut, cell, hc]

end Threads

end Ntr.Meter
