import Mathlib.Algebra.Order.Ring.Int
import Std.Data.String.ToNat
import Mathlib.Data.List.Nodup
import QuorumDispatch.Lib.Partial

/-!
The outbound queue of an ACP session. One turn is in flight at a time; what is sent
meanwhile waits in a bounded backlog and is released when the terminal of the very turn in
flight arrives.
-/

namespace QuorumDispatch.Acp

open Lib

/-- One queued inject, waiting to become the session's turn in flight. -/
structure QueuedInject where
  turn : String
  message : String
  sender : String
deriving DecidableEq, Repr

inductive CompleteOutcome where
  | released
  | wrongTurn
  | notInFlight
deriving DecidableEq, Repr

structure OutboundQueue where
  session : String
  capacity : Nat
  nextSeq : Nat := 0
  inFlight : Option String := none
  pending : List QueuedInject := []
deriving DecidableEq, Repr

def turnId (session : String) (seq : Nat) : String := session ++ "#t" ++ Nat.repr seq

theorem turnId_injective (session : String) {m n : Nat} (h : turnId session m = turnId session n) :
    m = n := by
  unfold turnId at h
  have htail : (Nat.repr m).toList = (Nat.repr n).toList := by
    have := congrArg String.toList h
    simpa only [String.toList_append, List.append_cancel_left_eq] using this
  exact Nat.repr_injective (String.toList_inj.mp htail)

namespace OutboundQueue

variable {q q' : OutboundQueue}

def new (session : String) (capacity : Nat) : OutboundQueue := { session, capacity := max capacity 1 }

def mintTurnId? (q : OutboundQueue) : Option (String × OutboundQueue) := do
  guard (q.nextSeq + 1 < 2 ^ 64)
  some (turnId q.session q.nextSeq, { q with nextSeq := q.nextSeq + 1 })

/-- The turn, or `none` if the backlog is full. -/
def enqueue? (q : OutboundQueue) (message sender : String) :
    Option (Option String × OutboundQueue) :=
  if q.capacity ≤ q.pending.length then some (none, q)
  else do
    let (turn, q) ← q.mintTurnId?
    some (some turn, { q with pending := q.pending ++ [{ turn, message, sender }] })

def tryRelease (q : OutboundQueue) : Option QueuedInject × OutboundQueue :=
  match q.inFlight, q.pending with
  | some _, _ => (none, q)
  | none, [] => (none, q)
  | none, item :: pending => (some item, { q with inFlight := some item.turn, pending })

def complete (q : OutboundQueue) (turn : String) : CompleteOutcome × OutboundQueue :=
  match q.inFlight with
  | some t => if t = turn then (.released, { q with inFlight := none }) else (.wrongTurn, q)
  | none => (.notInFlight, q)

def isIdle (q : OutboundQueue) : Bool := q.inFlight.isNone

theorem enqueue?_full (h : q.capacity ≤ q.pending.length) (message sender : String) :
    q.enqueue? message sender = some (none, q) := if_pos h

theorem enqueue?_accepts {message sender : String} {r : Option String × OutboundQueue}
    (hroom : ¬q.capacity ≤ q.pending.length) (h : q.enqueue? message sender = some r) :
    r = (some (turnId q.session q.nextSeq), { q with
      nextSeq := q.nextSeq + 1
      pending := q.pending ++ [{ turn := turnId q.session q.nextSeq, message, sender }] }) := by
  rw [enqueue?, if_neg hroom] at h
  obtain ⟨⟨turn, q₁⟩, hmint, h⟩ := Option.bind_eq_some_iff.mp h
  obtain ⟨-, hmint⟩ := guard_bind_eq_some.mp hmint
  cases hmint
  cases h
  rfl

theorem complete_inFlight (q : OutboundQueue) (turn : String) :
    (q.complete turn).2 =
      { q with inFlight := if q.inFlight = some turn then none else q.inFlight } := by
  obtain ⟨session, capacity, nextSeq, inFlight, pending⟩ := q
  cases inFlight with
  | none => rfl
  | some t => by_cases h : t = turn <;> simp [complete, h]

def Waits (q : OutboundQueue) (turn : String) : Prop := ∃ item ∈ q.pending, item.turn = turn

def Holds (q : OutboundQueue) (turn : String) : Prop := q.inFlight = some turn ∨ q.Waits turn

theorem holds_tryRelease (q : OutboundQueue) (turn : String) : q.tryRelease.2.Holds turn ↔ q.Holds turn := by
  obtain ⟨session, capacity, nextSeq, inFlight, pending⟩ := q
  cases inFlight with
  | some t => rfl
  | none =>
      cases pending with
      | nil => rfl
      | cons item pending => simp [tryRelease, Holds, Waits]

theorem pending_tryRelease {q : OutboundQueue} (h : q.tryRelease.2.inFlight = none) :
    q.tryRelease.2.pending = [] := by
  obtain ⟨session, capacity, nextSeq, inFlight, pending⟩ := q
  cases inFlight with
  | some t => cases h
  | none =>
      cases pending with
      | nil => rfl
      | cons item pending => cases h

theorem holds_complete (q : OutboundQueue) (turn turn' : String) :
    (q.complete turn).2.Holds turn' ↔ (q.inFlight = some turn' ∧ turn ≠ turn') ∨ q.Waits turn' := by
  rw [complete_inFlight]
  unfold Holds Waits
  by_cases h : q.inFlight = some turn <;> grind

end OutboundQueue

end QuorumDispatch.Acp
