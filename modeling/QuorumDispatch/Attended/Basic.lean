import QuorumDispatch.DeliveryEvents.Record

/-!
The pure parts of attended delivery: the journal of the human's draft, the lock
that buffers input while a send is fired, the durable record of a pending send
and the verdict that a restart reaches about one.
-/

namespace QuorumDispatch.Attended

open Lib

/-! ### The journal -/

structure Journal where
  draft : Bytes := []
  lastKeystrokeMs : Option Int := none
deriving DecidableEq, Repr

def carriageReturn : UInt8 := 13

/-- One byte of a burst. In a paste a carriage return is a literal newline;
elsewhere it submits a nonempty draft. -/
def Journal.pushByte (isPaste : Bool) (draft : Bytes) (b : UInt8) : Bytes :=
  if b = carriageReturn then
    if isPaste then draft ++ [newline]
    else []
  else draft ++ [b]

def Journal.onHumanInput (j : Journal) (bytes : Bytes) (nowMs : Int) (pasteThreshold : Nat) :
    Journal :=
  let isPaste := decide (pasteThreshold ≤ bytes.length)
  { draft := bytes.foldl (Journal.pushByte isPaste) j.draft
    lastKeystrokeMs := some nowMs }

/-! ### The input lock -/

structure InputLock where
  locked : Bool := false
  buffer : Bytes := []
deriving DecidableEq, Repr

inductive Admit where
  | passthrough (bytes : Bytes)
  | buffered
deriving DecidableEq, Repr

def InputLock.lock (l : InputLock) : InputLock := { l with locked := true }

def InputLock.admit (l : InputLock) (bytes : Bytes) : Admit × InputLock :=
  if l.locked then (.buffered, { l with buffer := l.buffer ++ bytes })
  else (.passthrough bytes, l)

def InputLock.unlockAndDrain (l : InputLock) : Bytes × InputLock :=
  (l.buffer, { locked := false, buffer := [] })

/-! ### Pending sends -/

inductive FirePhase where
  | accepted
  | countdown
  | fireStarted
  | fireCompleted
deriving DecidableEq, Repr

structure PendingRecord where
  sendId : String
  contentSha256 : String
  contentLen : UInt64
  session : Option String
  name : Option String
  verb : String
  transcript : Option String := none
  transcriptOffset : Option UInt64 := none
  priority : Bool
  acceptedAtMs : Int64
  phase : FirePhase := .accepted
  draft : Bytes := []
  fireStarted : Bool := false
  fireCompleted : Bool := false
deriving DecidableEq, Repr, Inhabited

inductive LandingScan where
  | landed
  | mismatch (actualSha : String) (actualLen : UInt64)
  | unconfirmed
deriving DecidableEq, Repr

inductive LandingResult where
  | landed
  | mismatch
  | unconfirmed
deriving DecidableEq, Repr

def LandingScan.toResult : LandingScan → LandingResult
  | landed => .landed
  | mismatch .. => .mismatch
  | unconfirmed => .unconfirmed

inductive ReconcileVerdict where
  | alreadyTerminal
  | lateMessageSeen
  | lateMismatch
  | seenFailedRecipientGone
  | pendingAbandonedUnknown
  | resurfaceDraft
deriving DecidableEq, Repr

def reconcile (phase : FirePhase) (landing : LandingResult) (sessionAlive alreadyTerminal : Bool) :
    ReconcileVerdict :=
  if alreadyTerminal then .alreadyTerminal
  else
    match phase with
    | .accepted | .countdown =>
        if sessionAlive then .resurfaceDraft else .seenFailedRecipientGone
    | .fireCompleted | .fireStarted =>
        match landing with
        | .landed => .lateMessageSeen
        | .mismatch => .lateMismatch
        | .unconfirmed => .pendingAbandonedUnknown

end QuorumDispatch.Attended
