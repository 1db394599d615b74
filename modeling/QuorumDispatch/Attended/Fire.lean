import QuorumDispatch.Attended.Basic

/-!
The fire sequence and the human input path as two threads over one state.

The input thread handles a burst in one critical section. The fire thread is a
program counter that moves by one effect at a time, so that a burst can come
between any two of them: it takes the lock together with the snapshot of the
draft, verifies the composer, records the start, clears, injects, records the
completion, replays the draft, releases the lock and takes what it buffered,
writes that out, and looks for the landing. Every failure leaves by the same
tail: replay if the composer was cleared, release, write out.

What the effects answer (screens, statuses, write errors, spool errors) is
supplied from outside at each step.
-/

namespace QuorumDispatch.Attended

open Lib DeliveryEvents

inductive AcceptanceSignal where
  | busyTransition
  | landing
deriving DecidableEq, Repr

/-- The facts about a harness and the knobs that the sequence reads. -/
structure FireConfig where
  signal : AcceptanceSignal
  chord : Bytes
  presses : Nat
  reverifyPlain : Bool
  verifyAttempts : Nat
  pasteThreshold : Nat
deriving Repr

inductive FireOutcome where
  | terminal (payload : Payload)
  | pending
deriving DecidableEq, Repr

inductive Tail where
  | failed (reason : String)
  | landing
deriving DecidableEq, Repr

/-- Where the fire thread stands; each constructor names the effect that is due. -/
inductive Pc where
  | idle
  | gate
  | lock
  | verify (draft : Bytes) (attempt : Nat)
  | start (draft : Bytes)
  | clear (draft : Bytes) (left : Nat)
  | reverify (draft : Bytes)
  | inject (draft : Bytes)
  | complete (draft : Bytes)
  | replay (draft : Bytes) (cleared : Bool) (next : Tail)
  | unlock (next : Tail)
  | flush (buffered : Bytes) (next : Tail)
  | landing
deriving DecidableEq, Repr

inductive Effect where
  | passthrough (bytes : Bytes)
  | chord (bytes : Bytes)
  | text (bytes : Bytes)
  | cr
  | replay (bytes : Bytes)
  | flush (bytes : Bytes)
  | spool (record : PendingRecord)
deriving DecidableEq, Repr

/-- The next move of the submit discipline: a chunk of the message, a carriage
return, or its verdict. -/
inductive InjectMove where
  | text (chunk : Bytes)
  | cr
  | finish (accepted : Bool)
deriving DecidableEq, Repr

/-- What the effects answer at a step; a step reads the fields it needs. `sent`
is how many bytes of a write the terminal took. -/
structure Answer where
  record : PendingRecord
  confirmable : Bool
  plain : Option Bool
  durable : Bool
  sent : Nat
  inject : InjectMove
  scan : LandingScan
  statusGone : Bool
  pastDeadline : Bool

/-- The shared state and the fire thread's own. `record` is the record of the
send being fired, or of the last one while the thread is idle. `typed` and the two marks are
history variables: all human bytes so far, and how long the trace and `typed`
were when the latest lock was taken; `snapshot` is the draft taken there. -/
structure State where
  lock : InputLock := {}
  journal : Journal := {}
  pc : Pc := .idle
  record : PendingRecord := default
  trace : List Effect := []
  outcomes : List FireOutcome := []
  typed : Bytes := []
  traceMark : Nat := 0
  typedMark : Nat := 0
  snapshot : Bytes := []
deriving DecidableEq, Repr

namespace State

def emit (s : State) (e : Effect) : State := { s with trace := s.trace ++ [e] }

def goto (s : State) (pc : Pc) : State := { s with pc }

def finish (s : State) (outcome : FireOutcome) : State :=
  { s with pc := .idle, outcomes := s.outcomes ++ [outcome] }

def spoolWrite (s : State) (rec : PendingRecord) (durable : Bool) : State :=
  { s with
    record := rec
    trace := if durable then s.trace ++ [Effect.spool rec] else s.trace }

def sendFailed (s : State) (reason : String) : FireOutcome :=
  .terminal (.sendFailed (some s.record.sendId) s.record.contentSha256 reason)

end State

/-- `journal_admit_passthrough`: the whole burst in one critical section. -/
def humanInput (cfg : FireConfig) (s : State) (bytes : Bytes) (nowMs : Int) (sent : Nat) :
    State :=
  let s := { s with
    journal := s.journal.onHumanInput bytes nowMs cfg.pasteThreshold
    typed := s.typed ++ bytes }
  match s.lock.admit bytes with
  | (.passthrough b, lock) => { s with lock }.emit (.passthrough (b.take sent))
  | (.buffered, lock) => { s with lock }

/-- `landing_terminal`: one turn of its loop. -/
def landingStep (cfg : FireConfig) (s : State) (a : Answer) : State :=
  let r := s.record
  match a.scan with
  | .landed => s.finish (.terminal (.messageSeen r.sendId r.contentSha256))
  | .mismatch actualSha actualLen =>
      s.finish (.terminal (.turnAnchoredMismatch r.sendId r.contentSha256 actualSha
        r.contentLen actualLen false none))
  | .unconfirmed =>
      if cfg.signal = .busyTransition ∧ a.statusGone = true then
        s.finish (.terminal (.seenFailed r.sendId "recipient-gone"))
      else if a.pastDeadline then s.finish .pending
      else s

def fireStep (cfg : FireConfig) (s : State) (a : Answer) : State :=
  match s.pc with
  | .idle => { s with pc := .gate, record := a.record }
  | .gate =>
      if !a.confirmable && cfg.signal != .landing then
        s.finish (s.sendFailed "acceptance-unconfirmable")
      else s.goto .lock
  | .lock =>
      -- the lock is armed and the draft is taken under the same guard
      { s with
        lock := s.lock.lock
        pc := .verify s.journal.draft 0
        traceMark := s.trace.length
        typedMark := s.typed.length
        snapshot := s.journal.draft }
  | .verify draft attempt =>
      if a.plain = some true then s.goto (.start draft)
      else if attempt + 1 < max cfg.verifyAttempts 1 then s.goto (.verify draft (attempt + 1))
      else s.goto (.replay draft false (.failed "verify-blocked"))
  | .start draft =>
      let s := s.spoolWrite
        { s.record with phase := .fireStarted, fireStarted := true, draft } a.durable
      if a.durable then s.goto (.clear draft (max cfg.presses 1))
      else s.goto (.replay draft false (.failed "inject-failed"))
  | .clear draft left =>
      let s := s.emit (.chord (cfg.chord.take a.sent))
      if a.sent < cfg.chord.length then s.goto (.replay draft true (.failed "inject-failed"))
      else if left > 1 then s.goto (.clear draft (left - 1))
      else if cfg.reverifyPlain then s.goto (.reverify draft)
      else s.goto (.inject draft)
  | .reverify draft =>
      if a.plain = some true then s.goto (.inject draft)
      else s.goto (.replay draft true (.failed "verify-blocked"))
  | .inject draft =>
      match a.inject with
      | .text chunk => s.emit (.text (chunk.take a.sent))
      | .cr => s.emit .cr
      | .finish accepted =>
          -- without a status signal there is no verdict to fail on
          if cfg.signal = .busyTransition ∧ accepted = false then
            s.goto (.replay draft true (.failed "not-accepted"))
          else s.goto (.complete draft)
  | .complete draft =>
      let s := s.spoolWrite
        { s.record with phase := .fireCompleted, fireCompleted := true } a.durable
      s.goto (.replay draft true .landing)
  | .replay draft cleared next =>
      let s := if cleared && !draft.isEmpty then s.emit (.replay (draft.take a.sent)) else s
      s.goto (.unlock next)
  | .unlock next =>
      let (buffered, lock) := s.lock.unlockAndDrain
      { s with lock, pc := .flush buffered next }
  | .flush buffered next =>
      let s := if buffered.isEmpty then s else s.emit (.flush (buffered.take a.sent))
      match next with
      | .failed reason => s.finish (s.sendFailed reason)
      | .landing => s.goto .landing
  | .landing => landingStep cfg s a

inductive Event where
  | human (bytes : Bytes) (nowMs : Int) (sent : Nat)
  | fire (answer : Answer)

def step (cfg : FireConfig) (s : State) : Event → State
  | .human bytes nowMs sent => humanInput cfg s bytes nowMs sent
  | .fire a => fireStep cfg s a

def stateAfter (cfg : FireConfig) (run : List Event) : State :=
  run.foldl (step cfg) {}

end QuorumDispatch.Attended
