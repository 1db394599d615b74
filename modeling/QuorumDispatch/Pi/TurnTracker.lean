import QuorumDispatch.Lib.Runs

/-!
The completed-turn counter of the pi resident. Two streams reach it: the boundaries of the
turns, in the order pi emits them but late, and readings of `is_streaming`, which are of the
moment but say nothing about the turn they belong to.
-/

namespace QuorumDispatch.Pi

open Lib

/-- The delta inside a `message_update`. -/
inductive AssistantEvent where
  | textDelta (delta : String)
  | done (reason : String)
  | error (reason : String)
  | other (kind : String)
deriving DecidableEq, Repr

inductive PiEvent where
  | agentStart
  | messageUpdate (assistantEvent : Option AssistantEvent)
  | agentEnd (willRetry : Bool)
  | other (kind : String)
deriving DecidableEq, Repr

def PiEvent.isBoundary : PiEvent → Bool
  | .agentStart | .agentEnd _ => true
  | _ => false

structure TurnTracker where
  streaming : Bool := false
  retryPending : Bool := false
  pendingDelayedTerminals : Nat := 0
  completed : Nat := 0
deriving DecidableEq, Repr

namespace TurnTracker

def closes (t : TurnTracker) : Bool := t.streaming && !t.retryPending

/-- `observe`: the tracker after a reading, and whether it counted. -/
def observe (t : TurnTracker) (streamingNow : Bool) : TurnTracker × Bool :=
  if streamingNow then ({ t with streaming := true }, false)
  else if t.streaming && !t.retryPending then
    ({ t with
        streaming := false
        pendingDelayedTerminals := t.pendingDelayedTerminals + 1
        completed := t.completed + 1 }, true)
  else ({ t with streaming := false }, false)

/-- `observe_event`: the tracker after a delivered event, and whether it counted. -/
def observeEvent (t : TurnTracker) : PiEvent → TurnTracker × Bool
  | .agentStart =>
      ({ t with pendingDelayedTerminals := 0, retryPending := false, streaming := true }, false)
  | .agentEnd true => ({ t with retryPending := true, streaming := true }, false)
  | .agentEnd false =>
      let t := { t with retryPending := false }
      if t.pendingDelayedTerminals > 0 then
        -- the terminal of a turn that a reading has counted
        ({ t with pendingDelayedTerminals := t.pendingDelayedTerminals - 1 }, false)
      else if t.streaming then
        ({ t with streaming := false, completed := t.completed + 1 }, true)
      else ({ t with completed := t.completed + 1 }, true)
  | _ => (t, false)

end TurnTracker

/-! ### What a queue of undelivered events is worth -/

/-- The completions that the events still to come will count, when so many terminals are
already accounted for. A start forgets them. -/
def owed : List PiEvent → Nat → Nat
  | [], _ => 0
  | .agentStart :: q, _ => owed q 0
  | .agentEnd false :: q, 0 => owed q 0 + 1
  | .agentEnd false :: q, p + 1 => owed q p
  | _ :: q, p => owed q p

def leadingTerminals : List PiEvent → Nat
  | [] => 0
  | .agentStart :: _ => 0
  | .agentEnd false :: q => leadingTerminals q + 1
  | _ :: q => leadingTerminals q

attribute [local simp] owed leadingTerminals

theorem owed_eq_succ (q : List PiEvent) (p : Nat) :
    owed q p = owed q (p + 1) + if p < leadingTerminals q then 1 else 0 := by
  induction q generalizing p with
  | nil => simp
  | cons e q ih =>
      rcases e with _ | _ | (_ | _) | _
      case agentStart => rfl
      case agentEnd.false =>
          cases p with
          | zero => simp
          | succ p =>
              have hp := ih p
              simpa using hp
      all_goals exact ih p

theorem owed_succ_le (q : List PiEvent) (p : Nat) : owed q (p + 1) ≤ owed q p := by
  rw [owed_eq_succ q p]
  exact Nat.le_add_right _ _

theorem owed_le_zero (q : List PiEvent) (p : Nat) : owed q p ≤ owed q 0 := by
  induction p with
  | zero => exact Nat.le_refl _
  | succ p ih => exact Nat.le_trans (owed_succ_le q p) ih

theorem owed_append_of_ne {e : PiEvent} (he : e ≠ .agentEnd false) (q : List PiEvent) (p : Nat) :
    owed (q ++ [e]) p = owed q p := by
  induction q generalizing p with
  | nil => rcases e with _ | _ | (_ | _) | _ <;> simp_all
  | cons x q ih =>
      rcases x with _ | _ | (_ | _) | _
      case agentEnd.false => cases p <;> simp [ih]
      all_goals simp [ih]

theorem owed_append_terminal_le (q : List PiEvent) (p : Nat) :
    owed (q ++ [PiEvent.agentEnd false]) p ≤ owed q p + 1 := by
  induction q generalizing p with
  | nil => cases p <;> simp
  | cons x q ih =>
      rcases x with _ | _ | (_ | _) | _
      case agentEnd.false => cases p <;> simp [ih]
      all_goals simp [ih]

theorem owed_append_terminal {q : List PiEvent} {p : Nat} (hp : p ≤ leadingTerminals q) :
    owed (q ++ [PiEvent.agentEnd false]) p = owed q p + 1 := by
  induction q generalizing p with
  | nil =>
      obtain rfl : p = 0 := by simpa using hp
      simp
  | cons x q ih =>
      rcases x with _ | _ | (_ | _) | _
      case agentStart => simp [ih (Nat.zero_le _)]
      case agentEnd.false =>
          cases p with
          | zero => simp [ih (Nat.zero_le _)]
          | succ p => simp [ih (Nat.le_of_succ_le_succ hp)]
      all_goals simp [ih hp]

theorem owed_eraseIdx_le (q : List PiEvent) (i p : Nat) : owed (q.eraseIdx i) p ≤ owed q p := by
  induction q generalizing i p with
  | nil => simp
  | cons x q ih =>
      cases i with
      | zero =>
          rw [List.eraseIdx_cons_zero]
          rcases x with _ | _ | (_ | _) | _
          case agentStart => exact owed_le_zero q p
          case agentEnd.false =>
              cases p with
              | zero => exact Nat.le_succ _
              | succ p => exact owed_succ_le q p
          all_goals exact Nat.le_refl _
      | succ i =>
          rw [List.eraseIdx_cons_succ]
          rcases x with _ | _ | (_ | _) | _
          case agentEnd.false => cases p <;> simp [ih]
          all_goals simp [ih]

theorem leadingTerminals_le_append (q q' : List PiEvent) :
    leadingTerminals q ≤ leadingTerminals (q ++ q') := by
  induction q with
  | nil => exact Nat.zero_le _
  | cons x q ih => rcases x with _ | _ | (_ | _) | _ <;> simp [ih]

theorem observeEvent_owed (t : TurnTracker) (e : PiEvent) (q : List PiEvent) :
    (t.observeEvent e).1.completed + owed q (t.observeEvent e).1.pendingDelayedTerminals =
      t.completed + owed (e :: q) t.pendingDelayedTerminals := by
  rcases e with _ | _ | (_ | _) | _
  case agentEnd.false =>
      cases hp : t.pendingDelayedTerminals with
      | zero => cases hs : t.streaming <;> simp [TurnTracker.observeEvent, hp, hs]; all_goals omega
      | succ p => simp [TurnTracker.observeEvent, hp]
  all_goals rfl

theorem observeEvent_pending_le {t : TurnTracker} {e : PiEvent} {q : List PiEvent}
    (h : t.pendingDelayedTerminals ≤ leadingTerminals (e :: q)) :
    (t.observeEvent e).1.pendingDelayedTerminals ≤ leadingTerminals q := by
  rcases e with _ | _ | (_ | _) | _
  case agentStart => exact Nat.zero_le _
  case agentEnd.false =>
      cases hp : t.pendingDelayedTerminals with
      | zero => cases hs : t.streaming <;> simp [TurnTracker.observeEvent, hp, hs]
      | succ p =>
          rw [hp] at h
          simpa [TurnTracker.observeEvent, hp] using Nat.le_of_succ_le_succ h
  all_goals exact h

/-! ### Runs of pi, and schedules -/

/-- Where pi is: between turns, in one, or between an end it will retry and the next start. -/
inductive Phase where
  | idle
  | running
  | gap
deriving DecidableEq, Repr

/-- What `is_streaming` may read. -/
def Phase.mayRead : Phase → Bool → Bool
  | .idle, now => !now
  | .running, now => now
  | .gap, _ => true

structure Resident where
  phase : Phase := .idle
  /-- Emitted by pi, and not yet delivered. -/
  queue : List PiEvent := []
  dropped : Bool := false
  tracker : TurnTracker := {}
  /-- The turns whose terminal has happened. -/
  terminals : Nat := 0
deriving DecidableEq, Repr

inductive Act where
  | start
  | retry
  | terminal
  | progress (e : PiEvent)
  | deliver
  | drop (i : Nat)
  | read (streamingNow : Bool)
deriving DecidableEq, Repr

namespace Resident

def emit (s : Resident) (e : PiEvent) : Resident := { s with queue := s.queue ++ [e] }

def step (s : Resident) : Act → Resident
  | .start => { s.emit .agentStart with phase := .running }
  | .retry => { s.emit (.agentEnd true) with phase := .gap }
  | .terminal => { s.emit (.agentEnd false) with phase := .idle, terminals := s.terminals + 1 }
  | .progress e => s.emit e
  | .deliver =>
      match s.queue with
      | [] => s
      | e :: q => { s with queue := q, tracker := (s.tracker.observeEvent e).1 }
  | .drop i => { s with queue := s.queue.eraseIdx i, dropped := true }
  | .read now => { s with tracker := (s.tracker.observe now).1 }

attribute [local grind =] step

/-- What can happen next: pi runs its turns one at a time, one event may be lost, and a
reading is the true one. -/
def Possible (s : Resident) : Act → Prop
  | .start => s.phase ≠ .running
  | .retry | .terminal => s.phase = .running
  | .progress e => e.isBoundary = false
  | .deliver => s.queue ≠ []
  | .drop i => s.dropped = false ∧ i < s.queue.length
  | .read now => s.phase.mayRead now = true

instance (s : Resident) (a : Act) : Decidable (s.Possible a) := by
  cases a <;> unfold Possible <;> infer_instance

def run (acts : List Act) : Resident := acts.foldl step {}

/-- What the tracker has counted, and what it will count from the queue. -/
def total (s : Resident) : Nat :=
  s.tracker.completed + owed s.queue s.tracker.pendingDelayedTerminals

/-- An idle reading that closes a turn finds a terminal that has happened: one that is queued
ahead of every start and not yet accounted for, or one that was lost. -/
def ReadSound (s : Resident) : Act → Prop
  | .read false =>
      s.tracker.closes = true →
        s.tracker.pendingDelayedTerminals < leadingTerminals s.queue ∨ s.total < s.terminals
  | _ => True

instance (s : Resident) (a : Act) : Decidable (s.ReadSound a) := by
  unfold ReadSound; split <;> infer_instance

def deliverAll (n : Nat) (s : Resident) : Resident := (List.replicate n Act.deliver).foldl step s

theorem total_read_false (s : Resident) :
    (s.step (.read false)).total + (if s.tracker.closes = true ∧
        s.tracker.pendingDelayedTerminals < leadingTerminals s.queue then 1 else 0) =
      s.total + if s.tracker.closes = true then 1 else 0 := by
  have hsucc := owed_eq_succ s.queue s.tracker.pendingDelayedTerminals
  cases hc : s.tracker.closes with
  | false =>
      simp only [TurnTracker.closes] at hc
      simp [total, step, TurnTracker.observe, hc]
  | true =>
      simp only [TurnTracker.closes] at hc
      simp only [total, step, TurnTracker.observe, hc, if_true, true_and]
      simp only [Bool.false_eq_true, if_false]
      omega

@[simp] theorem total_deliver (s : Resident) : (s.step .deliver).total = s.total := by
  simp only [total, step]
  split
  case h_1 => rfl
  case h_2 e q hq => rw [hq]; exact observeEvent_owed s.tracker e q

theorem step_deliver_terminals (s : Resident) : (s.step .deliver).terminals = s.terminals := by
  simp only [step]
  split <;> rfl

theorem length_step_deliver (s : Resident) : (s.step .deliver).queue.length = s.queue.length - 1 := by
  simp only [step]
  split
  case h_1 hq => simp [hq]
  case h_2 hq => simp [hq]

theorem total_step_le {s : Resident} {a : Act} (h : s.total ≤ s.terminals) (hr : s.ReadSound a)
    (hp : s.Possible a) : (s.step a).total ≤ (s.step a).terminals := by
  cases a with
  | start => simpa [total, step, emit, owed_append_of_ne] using h
  | retry => simpa [total, step, emit, owed_append_of_ne] using h
  | terminal =>
      have hle := owed_append_terminal_le s.queue s.tracker.pendingDelayedTerminals
      simp only [total, step, emit] at h ⊢
      omega
  | progress e =>
      have he : e ≠ .agentEnd false := by rintro rfl; cases hp
      simpa [total, step, emit, owed_append_of_ne he] using h
  | deliver => rw [total_deliver, step_deliver_terminals]; exact h
  | drop i =>
      have hle := owed_eraseIdx_le s.queue i s.tracker.pendingDelayedTerminals
      simp only [total, step] at h ⊢
      omega
  | read now =>
      cases now with
      | true => exact h
      | false =>
          have hread := total_read_false s
          change (s.step (.read false)).total ≤ s.terminals
          cases hc : s.tracker.closes with
          | false => simp [hc] at hread; omega
          | true =>
              -- the one case that counts: a terminal is there, or one is missing
              rcases hr hc with hlead | hlost
              · simp [hc, hlead] at hread; omega
              · simp [hc] at hread; omega

/-- With nothing dropped the total is the number of terminals, and the terminals accounted
for lead the queue. -/
structure Exact (s : Resident) : Prop where
  total : s.total = s.terminals
  pending : s.tracker.pendingDelayedTerminals ≤ leadingTerminals s.queue

theorem Exact.emit {s : Resident} (h : s.Exact) {e : PiEvent} (he : e ≠ .agentEnd false)
    (phase : Phase) : ({ s.emit e with phase := phase } : Resident).Exact where
  total := by simpa [Resident.total, Resident.emit, owed_append_of_ne he] using h.total
  pending := Nat.le_trans h.pending (leadingTerminals_le_append ..)

theorem Exact.step {s : Resident} (h : s.Exact) {a : Act} (hr : s.ReadSound a)
    (hp : s.Possible a) (hd : (s.step a).dropped = false) : (s.step a).Exact := by
  cases a with
  | start => exact h.emit (by simp) .running
  | retry => exact h.emit (by simp) .gap
  | progress e =>
      have he : e ≠ .agentEnd false := by rintro rfl; cases hp
      exact h.emit he s.phase
  | terminal =>
      have hone := owed_append_terminal h.pending
      have htotal := h.total
      constructor
      · simp only [Resident.total, Resident.step, Resident.emit] at htotal ⊢
        omega
      · exact Nat.le_trans h.pending (leadingTerminals_le_append ..)
  | deliver =>
      constructor
      · rw [total_deliver, step_deliver_terminals]; exact h.total
      · have hle := h.pending
        simp only [Resident.step]
        split
        case h_1 => exact hle
        case h_2 e q hq => rw [hq] at hle; exact observeEvent_pending_le hle
  | drop i => cases hd
  | read now =>
      cases now with
      | true => exact ⟨h.total, h.pending⟩
      | false =>
          have hread := total_read_false s
          have htotal := h.total
          cases hc : s.tracker.closes with
          | false =>
              simp only [TurnTracker.closes] at hc
              constructor
              · simpa [Resident.total, Resident.step, TurnTracker.observe, hc] using h.total
              · simpa [Resident.step, TurnTracker.observe, hc] using h.pending
          | true =>
              have hlead : s.tracker.pendingDelayedTerminals < leadingTerminals s.queue :=
                (hr hc).resolve_right (by omega)
              constructor
              · change (s.step (.read false)).total = s.terminals
                simp [hc, hlead] at hread
                omega
              · simp only [TurnTracker.closes] at hc
                simpa [Resident.step, TurnTracker.observe, hc] using Nat.succ_le_of_lt hlead

theorem dropped_step {s : Resident} {a : Act} (h : (s.step a).dropped = false) :
    s.dropped = false := by
  cases a with
  | deliver =>
      simp only [step] at h
      split at h <;> exact h
  | drop i => cases h
  | _ => exact h

/-! ### Delivering the whole queue -/

theorem deliverAll_succ (n : Nat) (s : Resident) :
    deliverAll (n + 1) s = deliverAll n (s.step .deliver) := rfl

@[simp] theorem deliverAll_total (n : Nat) (s : Resident) : (deliverAll n s).total = s.total := by
  induction n generalizing s with
  | zero => rfl
  | succ n ih => rw [deliverAll_succ, ih, total_deliver]

theorem deliverAll_queue (s : Resident) : (deliverAll s.queue.length s).queue = [] := by
  generalize hn : s.queue.length = n
  induction n generalizing s with
  | zero => exact List.length_eq_zero_iff.mp hn
  | succ n ih => exact ih (s.step .deliver) (by rw [length_step_deliver, hn]; rfl)

theorem deliverAll_completed (s : Resident) :
    (deliverAll s.queue.length s).tracker.completed = s.total := by
  rw [← deliverAll_total s.queue.length s, total, deliverAll_queue]
  rfl

/-! ### The count of a run -/

/-- The count stays below the terminals at every point of the run, and also when the events
that are still queued there are delivered. -/
def NeverOvercounts (acts : List Act) : Prop :=
  ∀ front rest, acts = front ++ rest → ∀ n ≤ (run front).queue.length,
    (deliverAll n (run front)).tracker.completed ≤ (run front).terminals

theorem total_le_of_sound {acts : List Act} (hp : Along step Possible {} acts)
    (hr : Along step ReadSound {} acts) : (run acts).total ≤ (run acts).terminals := by
  have hstep (s : Resident) (a : Act) (h : s.total ≤ s.terminals)
      (hs : s.ReadSound a ∧ s.Possible a) : (s.step a).total ≤ (s.step a).terminals :=
    total_step_le h hs.1 hs.2
  exact Along.invariant hstep (Nat.le_refl _) (hr.and hp)

theorem exact_of_sound {acts : List Act} (hp : Along step Possible {} acts)
    (hr : Along step ReadSound {} acts) (hd : (run acts).dropped = false) : (run acts).Exact := by
  have hstep (s : Resident) (a : Act) (h : s.dropped = false → s.Exact)
      (hs : s.ReadSound a ∧ s.Possible a) : (s.step a).dropped = false → (s.step a).Exact :=
    fun hd => (h (dropped_step hd)).step hs.1 hs.2 hd
  exact Along.invariant hstep (fun _ => ⟨rfl, Nat.le_refl _⟩) (hr.and hp) hd

theorem total_gt_of_unsound {s : Resident} {a : Act} (h : ¬ s.ReadSound a) :
    (s.step a).terminals < (s.step a).total := by
  cases a with
  | read now =>
      cases now with
      | true => exact absurd trivial h
      | false =>
          simp only [ReadSound, not_forall, not_or, Nat.not_lt] at h
          obtain ⟨hc, hlead, hlost⟩ := h
          have hread := total_read_false s
          simp [hc, Nat.not_lt.mpr hlead] at hread
          change s.terminals < (s.step (.read false)).total
          omega
  | _ => exact absurd trivial h

theorem sound_of_neverOvercounts {acts : List Act} (h : NeverOvercounts acts) :
    Along step ReadSound {} acts := by
  refine Along.of_here fun front a rest hacts => ?_
  by_contra hunsound
  -- what the reading adds comes out when the queue is delivered
  have hle := h (front ++ [a]) rest (by simp [hacts]) _ (Nat.le_refl _)
  have hgt := total_gt_of_unsound hunsound
  rw [deliverAll_completed] at hle
  simp only [run, List.foldl_append, List.foldl_cons, List.foldl_nil] at hle
  omega

/-- The exact condition under which the counter never overcounts; with nothing dropped and
all delivered it is then the number of terminals. -/
theorem neverOvercounts_iff {acts : List Act} (hp : Along step Possible {} acts) :
    (NeverOvercounts acts ↔ Along step ReadSound {} acts) ∧
      (Along step ReadSound {} acts → (run acts).dropped = false → (run acts).queue = [] →
        (run acts).tracker.completed = (run acts).terminals) := by
  refine ⟨⟨sound_of_neverOvercounts, ?_⟩, ?_⟩
  · rintro hr front rest rfl n -
    have htotal := total_le_of_sound hp.front hr.front
    have hcount : (deliverAll n (run front)).tracker.completed ≤ (deliverAll n (run front)).total :=
      Nat.le_add_right _ _
    rw [deliverAll_total] at hcount
    exact Nat.le_trans hcount htotal
  · intro hr hd hq
    have hexact := (exact_of_sound hp hr hd).total
    rw [total, hq] at hexact
    exact hexact

/-- A turn whose end comes late, a drop, and a reading that closes a turn in time. -/
theorem neverOvercounts_lateEnd :
    (NeverOvercounts [.start, .deliver, .terminal, .read false, .deliver, .start, .drop 0] ↔
        Along step ReadSound {} [.start, .deliver, .terminal, .read false, .deliver, .start,
          .drop 0]) ∧
      (run [.start, .deliver, .terminal, .read false, .deliver]).tracker.completed = 1 :=
  ⟨(neverOvercounts_iff (by decide)).1,
    (neverOvercounts_iff (by decide)).2 (by decide) rfl rfl⟩

/-- A turn that pi retries: the reading of the gap closes it, and its end closes it again. -/
def retriedTurn : List Act :=
  [.start, .deliver, .retry, .read false, .deliver, .start, .deliver, .terminal, .deliver]

theorem retriedTurn_overcounts :
    Along step Possible {} retriedTurn ∧ (run retriedTurn).dropped = false ∧
      (run retriedTurn).queue = [] ∧ (run retriedTurn).terminals = 1 ∧
      (run retriedTurn).tracker.completed = 2 ∧
      (run (retriedTurn.take 4)).terminals = 0 ∧
      (run (retriedTurn.take 4)).tracker.completed = 1 := by
  decide

end Resident

end QuorumDispatch.Pi
