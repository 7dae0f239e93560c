/-
The reverse readers of the UDP NAT (`reverse` in `service/udpnat.go`): one goroutine for each
outbound connection, which ends at the first error and leaves the connection in its table.

* `Session.step`: datagrams and ends of readers, in any order, on one association;
* `replies_iff`: forwarded datagrams have a reader in exactly the runs in which none comes for
  a connection whose reader has ended. A connection of the table is never replaced (`stored_next`).
-/
import Ntr.Service.UdpRoute

namespace Ntr.Service.Udp

open Go Proto

variable {ο : Type}

namespace Assoc

variable (n : Assoc ο)

/-- There is a connection at a place of the table: the shared one, or that of a target. -/
def stored : Option Str → Bool
  | none => n.shared.isSome
  | some text => (n.conns.lookup text).isSome

/-- The place of the connection that a datagram to `dst` finds. -/
def place (dst : Socksaddr) : Option (Option Str) :=
  if n.shared.isSome then some none
  else if (n.find dst).isSome then some (some dst.string)
  else none

end Assoc

/-- An association, and the places of the connections whose readers have ended. -/
structure Session (ο : Type) where
  assoc : Assoc ο := {}
  ended : List (Option Str) := []

/-- A datagram of the client; or a reader ends, when its connection fails or is closed, or when
the client cannot be written to. -/
inductive Event (ο : Type) where
  | datagram (d : Datagram ο)
  | readerEnds (k : Option Str)

namespace Session

/-- One event. The reader of a new connection starts with it. -/
def step (s : Session ο) : Event ο → Session ο
  | .datagram d => { s with assoc := (s.assoc.next d).2 }
  | .readerEnds k => if s.assoc.stored k then { s with ended := k :: s.ended } else s

/-- **Replies have a reader**: each datagram that finds its connection in the table finds one
whose reader is still running. -/
def Answered (s : Session ο) : List (Event ο) → Prop
  | [] => True
  | .datagram d :: xs =>
    (∀ k, s.assoc.place d.dst = some k → k ∉ s.ended) ∧ (s.step (.datagram d)).Answered xs
  | .readerEnds k :: xs => (s.step (.readerEnds k)).Answered xs

end Session

namespace Assoc

/-- The datagram is one for the connection: any datagram for the shared one, those to its target
for another, as long as there is no shared one. -/
def Takes (n : Assoc ο) (k : Option Str) (d : Datagram ο) : Prop :=
  ∀ text, k = some text → n.shared = none ∧ d.dst.string = text

def Unused (k : Option Str) (n : Assoc ο) : List (Event ο) → Prop
  | [] => True
  | .datagram d :: xs => ¬ n.Takes k d ∧ Unused k (n.next d).2 xs
  | .readerEnds _ :: xs => Unused k n xs

/-- When a reader ends, no datagram comes for its connection any more. -/
def Lasting (n : Assoc ο) : List (Event ο) → Prop
  | [] => True
  | .datagram d :: xs => Lasting (n.next d).2 xs
  | .readerEnds k :: xs => (n.stored k = true → n.Unused k xs) ∧ Lasting n xs

variable {n : Assoc ο} {k : Option Str} {d : Datagram ο}

/-- **A connection of the table stays**, whether its reader runs or not. -/
lemma stored_next (h : n.stored k = true) : (n.next d).2.stored k = true := by
  rcases Agrees.next_cases n d with hnext | ⟨c, hnext, -⟩ | ⟨c, hnext, -, -⟩
  · rwa [hnext]
  · rwa [hnext]
  · rw [hnext, keep]
    split_ifs
    · cases k with
      | none => rfl
      | some text => exact h
    · cases k with
      | none => exact h
      | some text =>
        rw [stored, List.lookup_cons]
        split
        · rfl
        · exact h

/-- A datagram finds a connection of the table exactly when it is one for it. -/
lemma place_eq_iff (h : n.stored k = true) : n.place d.dst = some k ↔ n.Takes k d := by
  rw [place, Takes]
  cases k with
  | none =>
    rw [stored] at h
    simp [h]
  | some text =>
    rw [stored] at h
    cases hshared : n.shared with
    | some c => simp
    | none =>
      rw [Option.isSome_none, if_neg Bool.false_ne_true, find]
      by_cases htext : d.dst.string = text
      · simp [htext, h]
      · split_ifs <;> simp [htext]

end Assoc

/-- **Run lemma**: the readers that have ended are not needed any more, and so for those that
end later. -/
lemma replies_iff_of_stored (xs : List (Event ο)) {s : Session ο}
    (h : ∀ k ∈ s.ended, s.assoc.stored k = true) :
    s.Answered xs ↔ (∀ k ∈ s.ended, s.assoc.Unused k xs) ∧ s.assoc.Lasting xs := by
  induction xs generalizing s with
  | nil => exact iff_of_true trivial ⟨fun _ _ => trivial, trivial⟩
  | cons x xs ih =>
    cases x with
    | datagram d =>
      have hplace : (∀ k, s.assoc.place d.dst = some k → k ∉ s.ended) ↔
          ∀ k ∈ s.ended, ¬ s.assoc.Takes k d := by
        constructor
        · intro hp k hk htakes
          exact hp k ((Assoc.place_eq_iff (h k hk)).mpr htakes) hk
        · intro ht k hplace hk
          exact ht k hk ((Assoc.place_eq_iff (h k hk)).mp hplace)
      have hrest := @ih (s.step (.datagram d)) fun k hk => Assoc.stored_next (h k hk)
      rw [Session.Answered, hplace, hrest, ← and_assoc]
      exact and_congr forall₂_and.symm Iff.rfl
    | readerEnds k =>
      rw [Session.Answered, Assoc.Lasting]
      by_cases hk : s.assoc.stored k = true
      · have hstep : s.step (.readerEnds k) = { s with ended := k :: s.ended } := if_pos hk
        have hrest := @ih { s with ended := k :: s.ended } (List.forall_mem_cons.mpr ⟨hk, h⟩)
        rw [hstep, hrest, List.forall_mem_cons]
        constructor
        · rintro ⟨⟨hend, hold⟩, hlast⟩
          exact ⟨hold, fun _ => hend, hlast⟩
        · rintro ⟨hold, hend, hlast⟩
          exact ⟨⟨hend hk, hold⟩, hlast⟩
      · have hstep : s.step (.readerEnds k) = s := if_neg hk
        rw [hstep, ih h]
        constructor
        · rintro ⟨hold, hlast⟩
          exact ⟨hold, fun hs => absurd hs hk, hlast⟩
        · rintro ⟨hold, -, hlast⟩
          exact ⟨hold, hlast⟩

/-- **Replies have a reader** in exactly the runs in which no datagram comes for a connection
after its reader has ended. -/
theorem replies_iff (xs : List (Event ο)) :
    ({} : Session ο).Answered xs ↔ ({} : Assoc ο).Lasting xs := by
  rw [replies_iff_of_stored xs fun k hk => (List.not_mem_nil hk).elim]
  exact and_iff_right fun k hk => (List.not_mem_nil hk).elim

/-- Everything goes out by `direct`, with a socket for each target. -/
def eachTarget : Resolver Str where
  resolve _ _ := .ok (.plain (lit "direct"))
  dialPacket out dst := some ⟨out, dst, false⟩

/-- A datagram to `1.1.1.1:53`. -/
def toResolver : Datagram Str := ⟨⟨.v4 0x01010101, [], 53⟩, [], eachTarget⟩

/-- **A datagram without a reader**: the reader of a target ends, and the next datagram to the
target goes out on the old connection, which stays in the table. -/
theorem no_reader_for_replies :
    let events :=
      [.datagram toResolver, .readerEnds (some (lit "1.1.1.1:53")), .datagram toResolver]
    ¬ ({} : Session Str).Answered events ∧
      (events.foldl Session.step {}).assoc.conns.length = 1 := by
  refine ⟨fun h => h.2.1 (some (lit "1.1.1.1:53")) (by decide +kernel) ?_, by decide +kernel⟩
  decide +kernel

end Ntr.Service.Udp
