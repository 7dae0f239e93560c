/-
The Mux.cool outbound: a pool of carriers, each a client worker on a link of its
own, and the calls of `DialStream` and `DialPacket` that share them.

* `Pool`, `Pool.Event`, `Pool.step`: the pool and its atomic steps. The scan of
  `acquire` looks at one carrier at a time, under the lock of the pool;
* `keepsInUse_iff_gentle`: exactly these runs keep all carriers that are in use.
-/
import Ntr.Lib.Runs
import Ntr.Mux.Client

namespace Ntr.Mux

open Go Lib Function

/-- A `carrier`: its worker, and how many streams use it. `closed` is history: the
pool has closed the worker. -/
structure Carrier where
  worker : Client := {}
  live : Nat := 0
  closed : Bool := false

/-- Where a call of `DialStream` or `DialPacket` is. -/
inductive Phase where
  | waiting
  /-- `acquire` looks through the carriers. -/
  | scanning
  /-- `base.DialStream`. -/
  | dialing
  | acquired (c : Nat)
  /-- `OpenStream` opens the sub-stream `r`. -/
  | opening (c r : Nat)
  | opened (c : Nat)
  /-- `OpenStream` has failed: `release` is next, then the two parts of `drop`. -/
  | failing (c : Nat)
  | released (c : Nat)
  | removed (c : Nat)
  | done
  deriving DecidableEq

/-- A call of `DialStream` or `DialPacket`, and the stream that it returns. -/
structure Dial where
  packet : Bool := false
  address : Address := {}
  port : UInt16 := 0
  phase : Phase := .waiting

/-- The loop of `acquire`: the carriers that it has yet to look at, those that it
has kept, and the one that it has picked. -/
structure Scan where
  dial : Nat
  rest : List Nat
  kept : List Nat := []
  pick : Option Nat := none
  deriving DecidableEq

/-- The `Outbound`: carriers and calls are numbered as they come. The lock is free,
or held by a scan. -/
structure Pool where
  concurrency : Nat
  carriers : List Nat := []
  obj : Nat → Carrier := fun _ => {}
  born : Nat := 0
  dials : Nat → Dial := fun _ => {}
  lock : Option Scan := none

namespace Pool

inductive Event where
  | dialStream (d : Nat) (address : Address) (port : UInt16)
  | dialPacket (d : Nat)
  /-- `acquire` takes the lock. -/
  | acquire (d : Nat)
  /-- `acquire` looks at the next carrier; behind the last it gives the lock back. -/
  | scan
  /-- `base.DialStream` returns. -/
  | base (d : Nat) (ok : Bool)
  /-- `OpenStream` calls `allocID`, or `NewPacketConn` returns. -/
  | opens (d : Nat)
  /-- `OpenStream` returns. -/
  | opened (d : Nat)
  /-- `release`, by `Close` of the stream or after a failure. -/
  | release (d : Nat)
  /-- `drop` takes the carrier out of the pool. -/
  | remove (d : Nat)
  /-- `drop` closes the worker. -/
  | shut (d : Nat)
  /-- A step of a worker: `closeAll` starts by itself when the link has failed. -/
  | worker (c : Nat) (e : Client.Event)

variable (s : Pool)

def modify (c : Nat) (f : Carrier → Carrier) : Pool :=
  { s with obj := update s.obj c (f (s.obj c)) }

def setPhase (d : Nat) (p : Phase) : Pool :=
  { s with dials := update s.dials d { s.dials d with phase := p } }

/-- `c.w.Close()`. -/
def close (c : Nat) : Pool :=
  s.modify c fun x => { x with worker := x.worker.step .shutdown, closed := true }

/-- One round of the loop of `acquire`, or what comes behind it. -/
def scanStep : Pool :=
  match s.lock with
  | none => s
  | some sc =>
    match sc.rest with
    | c :: rest =>
      if (s.obj c).worker.isActive then
        let pick := if sc.pick = none ∧ (s.obj c).live < s.concurrency then some c else sc.pick
        { s with lock := some { sc with rest, kept := sc.kept ++ [c], pick } }
      else { s.close c with lock := some { sc with rest } }
    | [] =>
      let s := { s with carriers := sc.kept, lock := none }
      match sc.pick with
      | some c => (s.modify c fun x => { x with live := x.live + 1 }).setPhase sc.dial (.acquired c)
      | none => s.setPhase sc.dial .dialing

def base (d : Nat) (ok : Bool) : Pool :=
  if (s.dials d).phase ≠ .dialing then s
  else if ok = false then s.setPhase d .done
  else if s.lock ≠ none then s
  else
    ({ s with
      carriers := s.carriers ++ [s.born]
      obj := update s.obj s.born { live := 1 }
      born := s.born + 1 }).setPhase d (.acquired s.born)

/-- The sub-stream of a stream gets its id, in a worker that has one left. -/
def opens (d : Nat) : Pool :=
  match (s.dials d).phase with
  | .acquired c =>
    if (s.dials d).packet then s.setPhase d (.opened c)
    else
      let w := (s.obj c).worker
      let w' := w.step (.openStream networkTCP (s.dials d).address (s.dials d).port)
      if w'.born = w.born then s
      else (s.modify c fun x => { x with worker := w' }).setPhase d (.opening c w.born)
  | _ => s

def opened (d : Nat) : Pool :=
  match (s.dials d).phase with
  | .opening c r =>
    match ((s.obj c).worker.obj r).stage with
    | .opened => s.setPhase d (.opened c)
    | .failed => s.setPhase d (.failing c)
    | _ => s
  | _ => s

def release (d : Nat) : Pool :=
  if s.lock ≠ none then s
  else
    match (s.dials d).phase with
    | .opened c => (s.modify c fun x => { x with live := x.live - 1 }).setPhase d .done
    | .failing c => (s.modify c fun x => { x with live := x.live - 1 }).setPhase d (.released c)
    | _ => s

def remove (d : Nat) : Pool :=
  if s.lock ≠ none then s
  else
    match (s.dials d).phase with
    | .released c =>
      ({ s with carriers := s.carriers.filter (· ≠ c) }).setPhase d (.removed c)
    | _ => s

def shut (d : Nat) : Pool :=
  match (s.dials d).phase with
  | .removed c => (s.close c).setPhase d .done
  | _ => s

def free (w : Client) : Client.Event → Bool
  | .openStream _ _ _ => false
  | .shutdown => w.link.down
  | _ => true

def step (s : Pool) : Event → Pool
  | .dialStream d address port =>
    if (s.dials d).phase = .waiting then
      { s with dials := update s.dials d { address, port } }
    else s
  | .dialPacket d =>
    if (s.dials d).phase = .waiting then
      { s with dials := update s.dials d { packet := true } }
    else s
  | .acquire d =>
    if s.lock = none ∧ (s.dials d).phase = .waiting then
      ({ s with lock := some { dial := d, rest := s.carriers } }).setPhase d .scanning
    else s
  | .scan => s.scanStep
  | .base d ok => s.base d ok
  | .opens d => s.opens d
  | .opened d => s.opened d
  | .release d => s.release d
  | .remove d => s.remove d
  | .shut d => s.shut d
  | .worker c e =>
    if free (s.obj c).worker e then s.modify c fun x => { x with worker := x.worker.step e } else s

/-! ### Carriers in use -/

/-- The carrier is in use: its link has not failed, the pool has not closed it, and
streams live on it. -/
def InUse (x : Carrier) : Prop := 0 < x.live ∧ x.worker.link.down = false ∧ x.closed = false

instance (x : Carrier) : Decidable (InUse x) := inferInstanceAs (Decidable (_ ∧ _))

/-- **The pool keeps what is in use**: the step closes no carrier that is. -/
def KeepsInUse (s : Pool) (e : Event) : Prop :=
  ∀ c, InUse (s.obj c) → ((s.step e).obj c).closed = false

/-- No carrier in use is scanned after more than 256 sub-streams, and none is closed
because one sub-stream could not be opened. -/
def Gentle (s : Pool) : Event → Prop
  | .scan => ∀ sc c rest, s.lock = some sc → sc.rest = c :: rest → InUse (s.obj c) →
      (s.obj c).worker.budget.total ≤ 256
  | .shut d => ∀ c, (s.dials d).phase = .removed c → ¬ InUse (s.obj c)
  | _ => True

/-- A worker closes itself only when its link has failed, and drains after 256
sub-streams. -/
structure Fit (x : Carrier) : Prop where
  done : x.worker.done = true → x.worker.link.down = true ∨ x.closed = true
  draining : x.worker.budget.draining = decide (x.worker.budget.total > 256)

section
variable {s : Pool} {x : Carrier} {c : Nat} {f : Carrier → Carrier}

lemma status_inj {w : Client} {done down : Bool} {b : Budget} (h : w.status = (done, down, b)) :
    w.done = done ∧ w.link.down = down ∧ w.budget = b := by
  simpa [Client.status] using h

lemma alloc_draining {b : Budget} (h : b.draining = decide (b.total > 256)) :
    b.alloc.draining = decide (b.alloc.total > 256) := by
  rw [Budget.alloc, h]
  by_cases hb : b.total > 256
  · have hb' : b.total + 1 > 256 := by omega
    simp [hb, hb']
  · simp [hb]

lemma Fit.step (h : Fit x) {e : Client.Event} (he : e = .shutdown → x.worker.link.down = true) :
    Fit { x with worker := x.worker.step e } := by
  rcases x.worker.status_step e with hs | hs | ⟨rfl, hs⟩ | ⟨rfl, hs⟩
  · obtain ⟨hdone, hdown, hb⟩ := status_inj hs
    exact ⟨fun hd => hdown ▸ h.done (hdone ▸ hd), hb ▸ h.draining⟩
  · obtain ⟨hdone, hdown, hb⟩ := status_inj hs
    exact ⟨fun hd => hdown ▸ h.done (hdone ▸ hd), hb ▸ alloc_draining h.draining⟩
  · obtain ⟨-, hdown, hb⟩ := status_inj hs
    exact ⟨fun _ => .inl (hdown.trans (he rfl)), hb ▸ h.draining⟩
  · obtain ⟨-, hdown, hb⟩ := status_inj hs
    exact ⟨fun _ => .inl hdown, hb ▸ h.draining⟩

lemma Fit.close (h : Fit x) : Fit { x with worker := x.worker.step .shutdown, closed := true } :=
  ⟨fun _ => .inr rfl, h.draining⟩

lemma Fit.live (h : Fit x) (n : Nat) : Fit { x with live := n } := ⟨h.done, h.draining⟩

lemma forall_modify {P : Carrier → Prop} (h : ∀ c, P (s.obj c)) (hc : P (f (s.obj c))) (q : Nat) :
    P ((s.modify c f).obj q) := by
  by_cases hq : q = c
  · subst hq
    exact (congrArg P (update_self q _ s.obj)).mpr hc
  · exact (congrArg P (update_of_ne hq _ s.obj)).mpr (h q)

lemma fit_close (h : ∀ c, Fit (s.obj c)) (c q : Nat) : Fit ((s.close c).obj q) :=
  forall_modify h (h c).close q

lemma fit_live (h : ∀ c, Fit (s.obj c)) (c q : Nat) (g : Nat → Nat) :
    Fit ((s.modify c fun x => { x with live := g x.live }).obj q) :=
  forall_modify h ((h c).live _) q

lemma fit_scanStep (h : ∀ c, Fit (s.obj c)) (c : Nat) : Fit (s.scanStep.obj c) := by
  rw [scanStep]
  split
  · exact h c
  · split
    · split
      · exact h c
      · exact fit_close h _ c
    · split
      · exact fit_live h _ c (· + 1)
      · exact h c

lemma fit_base (h : ∀ c, Fit (s.obj c)) (d : Nat) (ok : Bool) (c : Nat) :
    Fit ((s.base d ok).obj c) := by
  rw [base]
  split_ifs
  · exact h c
  · exact h c
  · exact h c
  · exact forall_modify (s := s) (f := fun _ => { live := 1 }) h ⟨nofun, rfl⟩ c

lemma fit_opens (h : ∀ c, Fit (s.obj c)) (d c : Nat) : Fit ((s.opens d).obj c) := by
  rw [opens]
  split
  case _ q _ =>
    split
    · exact h c
    · dsimp only
      split_ifs
      · exact h c
      · exact forall_modify (f := fun x => { x with worker := x.worker.step (.openStream _ _ _) }) h
          ((h q).step nofun) c
  · exact h c

lemma fit_release (h : ∀ c, Fit (s.obj c)) (d c : Nat) : Fit ((s.release d).obj c) := by
  rw [release]
  split_ifs
  · exact h c
  · split
    · exact fit_live h _ c (· - 1)
    · exact fit_live h _ c (· - 1)
    · exact h c

lemma free_shutdown {w : Client} {e : Client.Event} (h : free w e = true) :
    e = .shutdown → w.link.down = true := by
  rintro rfl
  exact h

/-- **Step lemma**: the workers of all carriers stay fit. -/
lemma fit_step (h : ∀ c, Fit (s.obj c)) (e : Event) (c : Nat) : Fit ((s.step e).obj c) := by
  cases e with
  | dialStream d a p =>
    rw [step]
    split_ifs <;> exact h c
  | dialPacket d =>
    rw [step]
    split_ifs <;> exact h c
  | acquire d =>
    rw [step]
    split_ifs <;> exact h c
  | scan => exact fit_scanStep h c
  | base d ok => exact fit_base h d ok c
  | opens d => exact fit_opens h d c
  | opened d =>
    rw [step, opened]
    split
    · split <;> exact h c
    · exact h c
  | release d => exact fit_release h d c
  | remove d =>
    rw [step, remove]
    split_ifs
    · exact h c
    · split <;> exact h c
  | shut d =>
    rw [step, shut]
    split
    · exact fit_close h _ c
    · exact h c
  | worker q e =>
    rw [step]
    split_ifs with hfree
    · exact forall_modify h ((h q).step (free_shutdown hfree)) c
    · exact h c

/-! ### What the pool closes -/

lemma closed_modify (hc : (f (s.obj c)).closed = (s.obj c).closed) (q : Nat) :
    ((s.modify c f).obj q).closed = (s.obj q).closed := by
  by_cases hq : q = c
  · subst hq
    exact (congrArg Carrier.closed (update_self q _ s.obj)).trans hc
  · exact congrArg Carrier.closed (update_of_ne hq _ s.obj)

lemma closed_close (q : Nat) (hq : q ≠ c) : ((s.close c).obj q).closed = (s.obj q).closed :=
  congrArg Carrier.closed (update_of_ne hq _ s.obj)

lemma closed_close_self : ((s.close c).obj c).closed = true :=
  congrArg Carrier.closed (update_self c _ s.obj)

/-- A carrier in use that the scan finds inactive has had more than 256 sub-streams. -/
lemma isActive_iff (h : Fit x) (hx : InUse x) :
    x.worker.isActive = true ↔ x.worker.budget.total ≤ 256 := by
  have hdone : x.worker.done = false := by
    by_contra hd
    rcases h.done (by simpa using hd) with hdown | hclosed
    · exact nomatch hx.2.1.symm.trans hdown
    · exact nomatch hx.2.2.symm.trans hclosed
  rw [Client.isActive, hdone, h.draining]
  simp

def Next (s : Pool) (c : Nat) : Prop := ∃ sc rest, s.lock = some sc ∧ sc.rest = c :: rest

/-- The scan closes the next carrier if it is inactive, and no other. -/
lemma closed_scanStep (q : Nat) :
    s.Next q ∧ (s.obj q).worker.isActive = false ∧ (s.scanStep.obj q).closed = true ∨
      ¬ (s.Next q ∧ (s.obj q).worker.isActive = false) ∧
        (s.scanStep.obj q).closed = (s.obj q).closed := by
  rw [scanStep]
  split
  case _ hl =>
    refine .inr ⟨?_, rfl⟩
    rintro ⟨⟨sc, rest, hl', -⟩, -⟩
    exact nomatch hl.symm.trans hl'
  case _ sc hl =>
    have hnext : ∀ c, s.Next c → ∃ rest, sc.rest = c :: rest := by
      rintro c ⟨sc', rest, hl', hr⟩
      obtain rfl := Option.some.inj (hl.symm.trans hl')
      exact ⟨rest, hr⟩
    split
    case _ c rest hr =>
      have hq : s.Next q → q = c := by
        intro hq
        obtain ⟨rest', hr'⟩ := hnext q hq
        exact (List.cons.inj (hr.symm.trans hr')).1.symm
      split
      case isTrue hactive =>
        refine .inr ⟨?_, rfl⟩
        rintro ⟨hn, hinactive⟩
        rw [hq hn] at hinactive
        exact nomatch hactive.symm.trans hinactive
      case isFalse hinactive =>
        by_cases hqc : q = c
        · subst hqc
          exact .inl ⟨⟨sc, rest, hl, hr⟩, by simpa using hinactive, closed_close_self⟩
        · exact .inr ⟨fun hn => hqc (hq hn.1), closed_close q hqc⟩
    case _ hr =>
      refine .inr ⟨?_, ?_⟩
      · rintro ⟨hn, -⟩
        obtain ⟨rest, hr'⟩ := hnext q hn
        exact nomatch hr.symm.trans hr'
      · split
        · exact closed_modify (s := { s with carriers := _, lock := none })
            (f := fun x => { x with live := x.live + 1 }) rfl q
        · rfl

lemma keepsInUse_scan (h : ∀ c, Fit (s.obj c)) : s.KeepsInUse .scan ↔ s.Gentle .scan := by
  constructor
  · intro hk sc c rest hl hr hx
    rw [← isActive_iff (h c) hx]
    by_contra hinactive
    have hclosed : (s.scanStep.obj c).closed = false := hk c hx
    rcases closed_scanStep (s := s) c with ⟨-, -, ht⟩ | ⟨hn, -⟩
    · exact nomatch hclosed.symm.trans ht
    · exact hn ⟨⟨sc, rest, hl, hr⟩, by simpa using hinactive⟩
  · intro hg c hx
    change (s.scanStep.obj c).closed = false
    rcases closed_scanStep (s := s) c with ⟨⟨sc, rest, hl, hr⟩, hinactive, -⟩ | ⟨-, hsame⟩
    · have hactive := (isActive_iff (h c) hx).mpr (hg sc c rest hl hr hx)
      exact nomatch hactive.symm.trans hinactive
    · exact hsame.trans hx.2.2

lemma keepsInUse_shut (d : Nat) : s.KeepsInUse (.shut d) ↔ s.Gentle (.shut d) := by
  constructor
  · intro hk c hp hx
    have hclosed := hk c hx
    have hstep : s.step (.shut d) = (s.close c).setPhase d .done := by rw [step, shut, hp]
    rw [hstep] at hclosed
    exact nomatch hclosed.symm.trans (closed_close_self (s := s) (c := c))
  · intro hg c hx
    rw [step, shut]
    split
    case _ q hp =>
      have hne : c ≠ q := by
        rintro rfl
        exact hg c hp hx
      exact (closed_close c hne).trans hx.2.2
    · exact hx.2.2

lemma keepsInUse_other {e : Event} (hscan : e ≠ .scan) (hshut : ∀ d, e ≠ .shut d) :
    s.KeepsInUse e := by
  intro c hx
  cases e with
  | scan => exact absurd rfl hscan
  | shut d => exact absurd rfl (hshut d)
  | dialStream d a p =>
    rw [step]
    split_ifs <;> exact hx.2.2
  | dialPacket d =>
    rw [step]
    split_ifs <;> exact hx.2.2
  | acquire d =>
    rw [step]
    split_ifs <;> exact hx.2.2
  | base d ok =>
    rw [step, base]
    split_ifs
    · exact hx.2.2
    · exact hx.2.2
    · exact hx.2.2
    · by_cases hc : c = s.born
      · subst hc
        exact congrArg Carrier.closed (update_self s.born _ s.obj)
      · exact (congrArg Carrier.closed (update_of_ne hc _ s.obj)).trans hx.2.2
  | opens d =>
    rw [step, opens]
    split
    · split
      · exact hx.2.2
      · dsimp only
        split_ifs
        · exact hx.2.2
        · exact (closed_modify (f := fun x => { x with worker := x.worker.step _ }) rfl c).trans
            hx.2.2
    · exact hx.2.2
  | opened d =>
    rw [step, opened]
    split
    · split <;> exact hx.2.2
    · exact hx.2.2
  | release d =>
    rw [step, release]
    split_ifs
    · exact hx.2.2
    · split
      · exact (closed_modify (f := fun x => { x with live := x.live - 1 }) rfl c).trans hx.2.2
      · exact (closed_modify (f := fun x => { x with live := x.live - 1 }) rfl c).trans hx.2.2
      · exact hx.2.2
  | remove d =>
    rw [step, remove]
    split_ifs
    · exact hx.2.2
    · split <;> exact hx.2.2
  | worker q e =>
    rw [step]
    split_ifs
    · exact (closed_modify (f := fun x => { x with worker := x.worker.step e }) rfl c).trans hx.2.2
    · exact hx.2.2

lemma keepsInUse_iff (h : ∀ c, Fit (s.obj c)) (e : Event) : s.KeepsInUse e ↔ s.Gentle e := by
  cases e with
  | scan => exact keepsInUse_scan h
  | shut d => exact keepsInUse_shut d
  | _ => exact iff_of_true (keepsInUse_other nofun nofun) trivial

/-- **The pool keeps the carriers that are in use** in exactly the runs in which no
such carrier is scanned after more than 256 sub-streams, or dropped because one of
them could not be opened. -/
theorem keepsInUse_iff_gentle (concurrency : Nat) (es : List Event) :
    EachStep step KeepsInUse { concurrency } es ↔ EachStep step Gentle { concurrency } es := by
  have hfit : ∀ c, Fit (({ concurrency } : Pool).obj c) := fun _ => ⟨nofun, rfl⟩
  constructor
  · exact EachStep.imp (I := fun s => ∀ c, Fit (s.obj c)) (fun s e h _ => fit_step h e)
      (fun s e h => (keepsInUse_iff h e).mp) hfit
  · exact EachStep.imp (I := fun s => ∀ c, Fit (s.obj c)) (fun s e h _ => fit_step h e)
      (fun s e h => (keepsInUse_iff h e).mpr) hfit

/-- A stream is open; the next one, on the same carrier, has a domain that is too
long for a frame. -/
def longDomain : List Event :=
  [.dialStream 0 { ip := [10, 0, 0, 1] } 80, .acquire 0, .scan, .base 0 true, .opens 0,
    .worker 0 (.register 0), .worker 0 (.announce 0), .opened 0,
    .dialStream 1 { isDomain := true, domain := List.replicate 256 97 } 80, .acquire 1, .scan,
    .scan, .opens 1, .worker 0 (.register 1), .worker 0 (.announce 1), .worker 0 (.abandon 1), .opened 1,
    .release 1, .remove 1]

/-- The carrier is closed under the first stream. -/
theorem longDomain_closes :
    ¬ KeepsInUse (longDomain.foldl step { concurrency := 8 }) (.shut 1) := by
  intro h
  have hclosed := h 0 (by decide +kernel)
  exact absurd hclosed (by decide +kernel)

end

end Pool

end Ntr.Mux
