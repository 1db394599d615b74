import QuorumDispatch.Lib.Partial

/-!
The client of a session. Connecting sets the flag `hasClient`, evicts the client before
and installs a channel for the next eviction; the guard that it returns reads its channel
when it is dropped and clears the flag if it was not evicted. The reader thread discards
pending output while the flag is down.

Connecting is done under the lock of the session manager, dropping a guard is not.
-/

namespace QuorumDispatch.Server

open Lib

/-- How far the drop of a guard is: not begun, begun and about to clear the flag, done. -/
inductive DropPhase where
  | attached
  | clearing
  | dropped
deriving DecidableEq, Repr

/-- A guard with the value of its channel, which is sent `false` by an eviction. -/
structure ClientGuard where
  evictRx : Bool := true
  phase : DropPhase := .attached
deriving DecidableEq, Repr

/-- How far a connect is: it has set the flag, it has evicted the client before. -/
inductive Connecting where
  | flagged
  | evicted
deriving DecidableEq, Repr

/-- The guards are in the order of their connects; `evictTx` is the index of the channel
that the session can send on. -/
structure Presence (α : Type) where
  hasClient : Bool := false
  evictTx : Option Nat := none
  connecting : Option Connecting := none
  guards : List ClientGuard := []
  pending : List α := []
  draining : Bool := false
deriving DecidableEq, Repr

namespace Presence

/-- The steps that interleave. The reader holds the lock of the screen from `output` to
`drain`. -/
inductive Step (α : Type) where
  | setFlag
  | evict
  | install
  | disconnect
  | readEviction (guard : Nat)
  | clearFlag (guard : Nat)
  | output (rows : List α)
  | drain
deriving DecidableEq, Repr

variable {α : Type}

def modifyGuard (p : Presence α) (i : Nat) (f : ClientGuard → ClientGuard) : Presence α :=
  { p with guards := p.guards.modify i f }

/-- `connect`, its first step. -/
def setFlag? (p : Presence α) : Option (Presence α) := do
  guard (p.connecting = none)
  some { p with hasClient := true, connecting := some .flagged }

def evict? (p : Presence α) : Option (Presence α) := do
  guard (p.connecting = some .flagged)
  let p' := match p.evictTx with
    | some oldTx => p.modifyGuard oldTx fun g => { g with evictRx := false }
    | none => p
  some { p' with evictTx := none, connecting := some .evicted }

def install? (p : Presence α) : Option (Presence α) := do
  guard (p.connecting = some .evicted)
  some { p with
    evictTx := some p.guards.length, connecting := none, guards := p.guards ++ [{}] }

def disconnect? (p : Presence α) : Option (Presence α) := do
  guard (p.connecting = none)
  some { p with evictTx := none }

/-- `drop` of a guard, its first step. -/
def readEviction? (p : Presence α) (i : Nat) : Option (Presence α) := do
  let g ← p.guards[i]?
  guard (g.phase = .attached)
  some (p.modifyGuard i fun g => { g with phase := if g.evictRx then .clearing else .dropped })

def clearFlag? (p : Presence α) (i : Nat) : Option (Presence α) := do
  let g ← p.guards[i]?
  guard (g.phase = .clearing)
  some { p.modifyGuard i fun g => { g with phase := .dropped } with hasClient := false }

def output? (p : Presence α) (rows : List α) : Option (Presence α) := do
  guard (p.draining = false)
  some { p with pending := p.pending ++ rows, draining := !p.hasClient }

def drain? (p : Presence α) : Option (Presence α) := do
  guard (p.draining = true)
  some { p with pending := [], draining := false }

def step? (p : Presence α) : Step α → Option (Presence α)
  | .setFlag => p.setFlag?
  | .evict => p.evict?
  | .install => p.install?
  | .disconnect => p.disconnect?
  | .readEviction i => p.readEviction? i
  | .clearFlag i => p.clearFlag? i
  | .output rows => p.output? rows
  | .drain => p.drain?

def run? (p : Presence α) (steps : List (Step α)) : Option (Presence α) := steps.foldlM step? p

/-! ### Presence -/

/-- The guard of the most recent connect has not begun its drop. -/
def attached (p : Presence α) : Bool := p.guards.getLast?.any fun g => g.phase = .attached

def begun (p : Presence α) : Nat := p.guards.length + if p.connecting.isSome then 1 else 0

/-- A drop does not clear the flag after a later connect has set it. -/
def clearsOwn (p : Presence α) : Step α → Bool
  | .clearFlag i => p.begun = i + 1
  | _ => true

def Flagged (p : Presence α) : Prop :=
  p.attached = true ∨ p.connecting.isSome = true → p.hasClient = true

theorem attached_modifyGuard (p : Presence α) (i : Nat) {f : ClientGuard → ClientGuard}
    (hf : ∀ g, (f g).phase = .attached → g.phase = .attached)
    (h : (p.modifyGuard i f).attached = true) : p.attached = true := by
  unfold attached modifyGuard at *
  rw [List.getLast?_eq_getElem?, List.getElem?_modify, List.length_modify,
    ← List.getLast?_eq_getElem?] at h
  cases hlast : p.guards.getLast? with
  | none => simp [hlast] at h
  | some g =>
      rw [hlast] at h
      by_cases hi : i = p.guards.length - 1
      · simp only [hi, if_true, Option.map_eq_map, Option.map_some, Option.any_some,
          decide_eq_true_eq] at h ⊢
        exact hf g h
      · simpa [hi] using h

variable {p p' : Presence α}

theorem Flagged.readEviction? (h : p.Flagged) {i : Nat} (hstep : p.readEviction? i = some p') :
    p'.Flagged := by
  obtain ⟨g, -, hstep⟩ := Option.bind_eq_some_iff.mp hstep
  obtain ⟨-, hstep⟩ := guard_bind_eq_some.mp hstep
  cases hstep
  rintro (hattached | hconnecting)
  · refine h (.inl (p.attached_modifyGuard i (fun g hg => ?_) hattached))
    dsimp only at hg
    split_ifs at hg
  · exact h (.inr hconnecting)

theorem Flagged.clearFlag? {i : Nat} (hown : p.begun = i + 1) (hstep : p.clearFlag? i = some p') :
    p'.Flagged := by
  obtain ⟨g, hg, hstep⟩ := Option.bind_eq_some_iff.mp hstep
  obtain ⟨-, hstep⟩ := guard_bind_eq_some.mp hstep
  cases hstep
  have hi : i < p.guards.length := (List.getElem?_eq_some_iff.mp hg).1
  have hlength : p.guards.length = i + 1 ∧ p.connecting.isSome = false := by
    unfold begun at hown
    split_ifs at hown with hconnecting
    · omega
    · exact ⟨hown, by simpa using hconnecting⟩
  have hlast : (p.guards.modify i fun g => { g with phase := .dropped }).getLast? =
      some { g with phase := .dropped } := by
    rw [List.getLast?_eq_getElem?, List.length_modify, hlength.1]
    simp [hg]
  rintro (hattached | hconnecting)
  · simp [attached, modifyGuard, hlast] at hattached
  · exact absurd hconnecting (by simp [modifyGuard, hlength.2])

theorem Flagged.step? {s : Step α} (h : p.Flagged) (hown : p.clearsOwn s = true)
    (hstep : p.step? s = some p') : p'.Flagged := by
  cases s with
  | setFlag =>
      obtain ⟨-, hstep⟩ := guard_bind_eq_some.mp hstep
      cases hstep
      exact fun _ => rfl
  | evict =>
      obtain ⟨hflagged, hstep⟩ := guard_bind_eq_some.mp hstep
      have hup : p.hasClient = true := h (.inr (by rw [hflagged]; rfl))
      cases hstep
      intro _
      dsimp only
      cases p.evictTx <;> exact hup
  | install =>
      obtain ⟨hevicted, hstep⟩ := guard_bind_eq_some.mp hstep
      have hup : p.hasClient = true := h (.inr (by rw [hevicted]; rfl))
      cases hstep
      exact fun _ => hup
  | disconnect =>
      obtain ⟨-, hstep⟩ := guard_bind_eq_some.mp hstep
      cases hstep
      exact h
  | readEviction i => exact h.readEviction? hstep
  | clearFlag i => exact .clearFlag? (by simpa [clearsOwn] using hown) hstep
  | output rows =>
      obtain ⟨-, hstep⟩ := guard_bind_eq_some.mp hstep
      cases hstep
      exact h
  | drain =>
      obtain ⟨-, hstep⟩ := guard_bind_eq_some.mp hstep
      cases hstep
      exact h

theorem flagged_new : ({} : Presence α).Flagged := by
  rintro (h | h) <;> cases h

/-- In a run in which no drop clears the flag after a later connect has set it, the flag is
up whenever the guard of the most recent connect has not begun its drop, and the reader
that looks for a client then keeps the pending output. -/
theorem hasClient_of_clearsOwn {steps : List (Step α)} {p : Presence α}
    (hown : Meets step? clearsOwn {} steps = true) (hrun : run? {} steps = some p)
    (hattached : p.attached = true) :
    p.hasClient = true ∧ ∀ rows p', p.step? (.output rows) = some p' →
      p'.pending = p.pending ++ rows ∧ p'.draining = false := by
  have hflagged : p.Flagged :=
    Meets.invariant (fun h hown hstep => h.step? hown hstep) flagged_new hown hrun
  have hup := hflagged (.inl hattached)
  refine ⟨hup, fun rows p' hstep => ?_⟩
  obtain ⟨-, hstep⟩ := guard_bind_eq_some.mp hstep
  cases hstep
  exact ⟨rfl, by simp [hup]⟩

/-- Two clients, the second of which evicts the first before that one is dropped. -/
def evictionThenDrop : List (Step Nat) :=
  [.setFlag, .evict, .install, .output [1], .setFlag, .evict, .install, .readEviction 0, .output [2]]

theorem hasClient_evictionThenDrop : ∃ p, run? {} evictionThenDrop = some p ∧
    p.attached = true ∧ p.pending = [1, 2] ∧ p.hasClient = true := by
  obtain ⟨p, hrun⟩ : ∃ p, run? {} evictionThenDrop = some p := ⟨_, rfl⟩
  have hattached : p.attached = true := by
    cases hrun
    rfl
  refine ⟨p, hrun, hattached, ?_, (hasClient_of_clearsOwn (by decide) hrun hattached).1⟩
  cases hrun
  rfl

/-- The first client is about to clear the flag when the second connects: the second is
attached, the flag is down, and its output is discarded. -/
theorem dropAcrossConnect_not_hasClient : ∃ p : Presence Nat,
    run? {} [.setFlag, .evict, .install, .readEviction 0, .setFlag, .evict, .install,
      .clearFlag 0, .output [1], .drain] = some p ∧
    p.attached = true ∧ p.hasClient = false ∧ p.pending = [] := ⟨_, rfl, rfl, rfl, rfl⟩

end Presence

end QuorumDispatch.Server
