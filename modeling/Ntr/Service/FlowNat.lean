/-
The UDP flows of the tunnel and transparent inbounds (`inbound/forward/forward.go`): datagrams
of many sources, each with a queue of its own.

* `NAT.step`: the dispatcher, the readers of the flows and their ends, in any order;
* `intact_iff`: a run keeps datagrams intact exactly when none that is read is longer.
-/
import Ntr.Proto.Vless

namespace Ntr.Service.FlowNat

open Go Proto.Vless List

/-- A datagram with its place in the order of arrival and the key of its flow: the source, for
transparent inbounds with the original destination. -/
structure Datagram (κ : Type) where
  num : Nat
  key : κ
  payload : Str

/-- `Flow`, with the datagrams that its reader has got and the bytes that it has got of them. -/
structure Flow (κ : Type) where
  key : κ
  queue : List (Datagram κ) := []
  closed : Bool := false
  given : List (Datagram κ × Str) := []

namespace Flow

variable {κ : Type}

/-- `Push`: a full queue drops the datagram. Where the flow is closed and has room, either case
of the `select` may be taken. -/
def push (lucky : Bool) (d : Datagram κ) (f : Flow κ) : Flow κ :=
  if f.queue.length < 64 ∧ (f.closed = false ∨ lucky) then { f with queue := f.queue ++ [d] } else f

/-- `ReadPacket` into a pooled buffer, whose `Write` takes what it has room for. -/
def readPacket (f : Flow κ) : Flow κ :=
  match f.queue with
  | [] => f
  | d :: ds => { f with queue := ds, given := f.given ++ [(d, d.payload.take room)] }

def close (f : Flow κ) : Flow κ := { f with closed := true }

end Flow

/-- `NAT`, with all flows that there were; the dispatcher may have looked up the flow of a
datagram and not yet pushed it. -/
structure NAT (κ : Type) where
  count : Nat := 0
  table : κ → Option Nat := fun _ => none
  flows : List (Flow κ) := []
  hand : Option (Nat × Datagram κ) := none

/-- A datagram arrives, and the reply function of a new flow can be opened or not; it is pushed;
the reader of a flow takes a datagram; the session of a flow closes it, and takes it out of the
table. -/
inductive Event (κ : Type) where
  | dispatch (key : κ) (payload : Str) (opens : Bool)
  | push (lucky : Bool)
  | readPacket (i : Nat)
  | close (i : Nat)
  | evict (i : Nat)

namespace NAT

variable {κ : Type} [DecidableEq κ]

/-- `Dispatch`, up to the push. There is one dispatcher. -/
def dispatch (n : NAT κ) (key : κ) (payload : Str) (opens : Bool) : NAT κ :=
  if n.hand.isSome then n
  else
    match n.table key with
    | some i => { n with count := n.count + 1, hand := some (i, ⟨n.count, key, payload⟩) }
    | none =>
      if opens then { n with
        count := n.count + 1
        table := Function.update n.table key (some n.flows.length)
        flows := n.flows ++ [{ key := key }]
        hand := some (n.flows.length, ⟨n.count, key, payload⟩) }
      else { n with count := n.count + 1 }

/-- The push of `Dispatch`. -/
def pushed (n : NAT κ) (lucky : Bool) : NAT κ :=
  match n.hand with
  | none => n
  | some (i, d) => { n with flows := n.flows.modify i (Flow.push lucky d), hand := none }

def step (n : NAT κ) : Event κ → NAT κ
  | .dispatch key payload opens => n.dispatch key payload opens
  | .push lucky => n.pushed lucky
  | .readPacket i => { n with flows := n.flows.modify i Flow.readPacket }
  | .close i => { n with flows := n.flows.modify i Flow.close }
  | .evict i => { n with table := fun key => (n.table key).filter (· ≠ i) }

/-- **Datagrams are intact**: the reader of a flow gets datagrams of the flow, whole and in the
order of their arrival. -/
def Intact (n : NAT κ) : Prop :=
  ∀ f ∈ n.flows, (∀ x ∈ f.given, x.1.key = f.key ∧ x.2 = x.1.payload) ∧
    (f.given.map Prod.fst).Pairwise fun d d' => d.num < d'.num

end NAT

/-! ### What holds of a flow -/

/-- The datagrams of a flow are its own, in order and among the first `b`. -/
structure Sound {κ : Type} (b : Nat) (f : Flow κ) : Prop where
  own : ∀ d ∈ f.given.map Prod.fst ++ f.queue, d.key = f.key ∧ d.num < b
  order : (f.given.map Prod.fst ++ f.queue).Pairwise fun d d' => d.num < d'.num
  cut : ∀ x ∈ f.given, x.2 = x.1.payload.take room

namespace Sound

variable {κ : Type} {b : Nat} {f : Flow κ}

lemma mono {b' : Nat} (h : Sound b f) (hb : b ≤ b') : Sound b' f :=
  ⟨fun d hd => ⟨(h.own d hd).1, (h.own d hd).2.trans_le hb⟩, h.order, h.cut⟩

lemma push {lucky : Bool} {d : Datagram κ} (h : Sound d.num f) (hkey : d.key = f.key) :
    Sound (d.num + 1) (f.push lucky d) := by
  rw [Flow.push]
  split_ifs
  · refine ⟨fun d' hd => ?_, ?_, h.cut⟩
    · rw [← append_assoc, mem_append, mem_singleton] at hd
      rcases hd with hd | rfl
      · exact (h.mono d.num.le_succ).own d' hd
      · exact ⟨hkey, Nat.lt_succ_self _⟩
    · rw [← append_assoc, pairwise_append]
      refine ⟨h.order, pairwise_singleton _ _, fun d' hd x hx => ?_⟩
      rw [mem_singleton.mp hx]
      exact (h.own d' hd).2
  · exact h.mono d.num.le_succ

lemma readPacket (h : Sound b f) : Sound b f.readPacket := by
  rw [Flow.readPacket]
  split
  · exact h
  · next d ds hq =>
    have hall : (f.given ++ [(d, d.payload.take room)]).map Prod.fst ++ ds =
        f.given.map Prod.fst ++ f.queue := by simp [hq]
    refine ⟨?_, ?_, fun x hx => ?_⟩
    · rw [hall]
      exact h.own
    · rw [hall]
      exact h.order
    · rcases mem_append.mp hx with hx | hx
      · exact h.cut x hx
      · rw [mem_singleton.mp hx]

end Sound

/-! ### Runs -/

namespace NAT

variable {κ : Type} {n : NAT κ}

/-- The datagrams before this one have been pushed or dropped. -/
def bound (n : NAT κ) : Nat :=
  match n.hand with
  | none => n.count
  | some (_, d) => d.num

/-- The invariant: table and dispatcher point to flows of their keys. -/
structure Ok (n : NAT κ) : Prop where
  table : ∀ key i, n.table key = some i → (n.flows.map Flow.key)[i]? = some key
  hand : ∀ i d, n.hand = some (i, d) → d.num + 1 = n.count ∧ (n.flows.map Flow.key)[i]? = some d.key
  flow : ∀ f ∈ n.flows, Sound n.bound f

lemma map_key_modify {g : Flow κ → Flow κ} (hg : ∀ f, (g f).key = f.key) (i : Nat)
    (l : List (Flow κ)) : (l.modify i g).map Flow.key = l.map Flow.key := by
  refine ext_getElem? fun j => ?_
  rw [getElem?_map, getElem?_map, getElem?_modify]
  cases l[j]? with
  | none => rfl
  | some f =>
    simp only [Option.map_eq_map, Option.map_some, Option.some.injEq]
    split_ifs
    · exact hg f
    · rfl

lemma mem_modify {g : Flow κ → Flow κ} {i : Nat} {l : List (Flow κ)} {f : Flow κ}
    (h : f ∈ l.modify i g) : f ∈ l ∨ ∃ f', l[i]? = some f' ∧ f = g f' := by
  obtain ⟨j, hj⟩ := mem_iff_getElem?.mp h
  rw [getElem?_modify] at hj
  obtain ⟨f', hf, rfl⟩ := Option.map_eq_some_iff.mp hj
  split_ifs with hij
  · exact .inr ⟨f', hij ▸ hf, rfl⟩
  · exact .inl (mem_of_getElem? hf)

/-- A change of one flow that keeps its key and what holds of it. -/
lemma Ok.modify (h : n.Ok) (i : Nat) {g : Flow κ → Flow κ} (hkey : ∀ f, (g f).key = f.key)
    (hg : ∀ f, Sound n.bound f → Sound n.bound (g f)) :
    Ok { n with flows := n.flows.modify i g } := by
  refine ⟨?_, ?_, fun f hf => ?_⟩
  · rw [map_key_modify hkey]
    exact h.table
  · rw [map_key_modify hkey]
    exact h.hand
  · rcases mem_modify hf with hold | ⟨f', hget, rfl⟩
    · exact h.flow f hold
    · exact hg f' (h.flow f' (mem_of_getElem? hget))

/-- The dispatcher pushes its datagram. -/
lemma Ok.push (h : n.Ok) {i : Nat} {d : Datagram κ} (hhand : n.hand = some (i, d)) (lucky : Bool) :
    Ok { n with flows := n.flows.modify i (Flow.push lucky d), hand := none } := by
  obtain ⟨hnum, hkey⟩ := h.hand i d hhand
  have hb : n.bound = d.num := by rw [bound, hhand]
  have hkeys : (n.flows.modify i (Flow.push lucky d)).map Flow.key = n.flows.map Flow.key :=
    map_key_modify (fun f => by rw [Flow.push]; split <;> rfl) i n.flows
  refine ⟨?_, fun i d hd => (by cases hd), fun f hf => ?_⟩
  · rw [hkeys]
    exact h.table
  · change Sound n.count f
    rw [← hnum]
    rcases mem_modify hf with hold | ⟨f', hget, rfl⟩
    · exact (hb ▸ h.flow f hold).mono d.num.le_succ
    · rw [getElem?_map, hget, Option.map_some, Option.some.injEq] at hkey
      exact (hb ▸ h.flow f' (mem_of_getElem? hget)).push hkey.symm

variable [DecidableEq κ]

/-- A new flow, for the datagram that the dispatcher has. -/
lemma Ok.open (h : n.Ok) (hfree : n.hand = none) (key : κ) (payload : Str) :
    Ok { n with
      count := n.count + 1
      table := Function.update n.table key (some n.flows.length)
      flows := n.flows ++ [{ key := key }]
      hand := some (n.flows.length, ⟨n.count, key, payload⟩) } := by
  have hnew : ((n.flows ++ [({ key := key } : Flow κ)]).map Flow.key)[n.flows.length]? =
      some key := by simp
  have hb : n.bound = n.count := by rw [bound, hfree]
  refine ⟨fun key' i hi => ?_, fun i d hd => ?_, fun f hf => ?_⟩
  · dsimp only at hi ⊢
    by_cases hkey : key' = key
    · rw [hkey, Function.update_self, Option.some.injEq] at hi
      rw [← hi, hnew, hkey]
    · rw [Function.update_of_ne hkey] at hi
      have hget := h.table key' i hi
      rw [List.map_append, List.getElem?_append_left (List.getElem?_eq_some_iff.mp hget).1, hget]
  · obtain ⟨rfl, rfl⟩ := Prod.mk.inj (Option.some.inj hd)
    exact ⟨rfl, hnew⟩
  · rcases List.mem_append.mp hf with hf | hf
    · exact hb ▸ h.flow f hf
    · rw [List.mem_singleton.mp hf]
      exact ⟨by simp, by simp, by simp⟩

/-- **Step lemma.** -/
lemma Ok.step (h : n.Ok) (e : Event κ) : (n.step e).Ok := by
  cases e with
  | dispatch key payload opens =>
    rw [NAT.step, NAT.dispatch]
    split
    · exact h
    · next hbusy =>
      have hfree : n.hand = none := Option.not_isSome_iff_eq_none.mp hbusy
      have hb : n.bound = n.count := by rw [bound, hfree]
      split
      · next i htable =>
        refine ⟨h.table, fun i' d hd => ?_, hb ▸ h.flow⟩
        obtain ⟨rfl, rfl⟩ := Prod.mk.inj (Option.some.inj hd)
        exact ⟨rfl, h.table key i htable⟩
      · split
        · exact h.open hfree key payload
        · refine ⟨h.table, fun i d hd => ?_, fun f hf => ?_⟩
          · rw [hfree] at hd
            cases hd
          · rw [bound, hfree]
            exact (hb ▸ h.flow f hf).mono n.count.le_succ
  | push lucky =>
    rw [NAT.step, NAT.pushed]
    split
    · exact h
    · next i d hhand => exact h.push hhand lucky
  | readPacket i =>
    exact h.modify i (fun f => by rw [Flow.readPacket]; split <;> rfl) fun f hf => hf.readPacket
  | close i => exact h.modify i (fun f => rfl) fun f hf => ⟨hf.own, hf.order, hf.cut⟩
  | evict i =>
    refine ⟨fun key j hj => ?_, h.hand, h.flow⟩
    exact h.table key j (Option.filter_eq_some_iff.mp hj).1

/-- **Run lemma.** -/
lemma ok_run (events : List (Event κ)) (h : n.Ok) : (events.foldl NAT.step n).Ok := by
  induction events generalizing n with
  | nil => exact h
  | cons e events ih => exact ih (h.step e)

/-- **Datagrams are intact** exactly when none that is read is longer than the room of a buffer,
for any datagrams and any order of arrivals, reads and ends of flows. -/
theorem intact_iff (events : List (Event κ)) :
    (events.foldl NAT.step {}).Intact ↔ ∀ f ∈ (events.foldl NAT.step {}).flows,
      ∀ x ∈ f.given, x.1.payload.length ≤ room := by
  have hok : (events.foldl NAT.step ({} : NAT κ)).Ok := by
    refine ok_run events ⟨fun key i hi => ?_, fun i d hd => ?_, fun f hf => ?_⟩
    · cases hi
    · cases hd
    · cases hf
  refine forall₂_congr fun f hf => ?_
  have hsound := hok.flow f hf
  constructor
  · rintro ⟨hx, -⟩ x hmem
    have hcut := (hx x hmem).2.symm.trans (hsound.cut x hmem)
    exact (take_eq_self_iff _).mp hcut.symm
  · intro hlen
    refine ⟨fun x hx => ⟨?_, ?_⟩, (pairwise_append.mp hsound.order).1⟩
    · exact (hsound.own x.1 (mem_append_left _ (mem_map_of_mem hx))).1
    · rw [hsound.cut x hx, take_of_length_le (hlen x hx)]

/-- **A long datagram is cut**: 32257 bytes arrive, and the reader of the flow gets 32256. -/
theorem long_datagram_cut :
    ¬ ([.dispatch 0 (List.replicate 32257 7) true, .push true, .readPacket 0].foldl NAT.step
      ({} : NAT Nat)).Intact := by
  intro h
  have hcut := ((h _ mem_cons_self).1 _ mem_cons_self).2
  have hlen := congrArg List.length hcut
  rw [length_take, length_replicate] at hlen
  exact absurd hlen (by decide)

end NAT

end Ntr.Service.FlowNat
