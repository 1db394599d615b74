import QuorumDispatch.DeliveryEvents.Record
import QuorumDispatch.Lib.Dialog
import QuorumDispatch.Lib.Text

/-!
The read-back of a send into a pane: the transcript is polled for the text, behind the length
that it had before the text was typed.
-/

namespace QuorumDispatch.Pty

open Lib DeliveryEvents

/-! ### Chunks -/

def chunkBytes : Nat := 1024

def chunkFrom (max : Nat) (cur : List Char) (curBytes : Nat) : List Char → List (List Char)
  | [] => if cur.isEmpty then [] else [cur]
  | c :: rest =>
      if curBytes ≠ 0 ∧ curBytes + c.utf8Size > max then
        cur :: chunkFrom max [c] c.utf8Size rest
      else chunkFrom max (cur ++ [c]) (curBytes + c.utf8Size) rest

def chunkText (message : List Char) (bytes : Nat) : List (List Char) :=
  chunkFrom (Nat.max bytes 1) [] 0 message

def payloadNeedsVerify (message : List Char) : Bool := 1 < (chunkText message chunkBytes).length

/-! ### What a sender asks -/

/-- `mux.send` writes into the pane, `acceptedThenCr` is the wait for a busy session with its one
remediation, and `reread` is the second look that an honest mismatch record takes. -/
inductive Query where
  | fileLen
  | muxSend (text : List Char)
  | acceptedThenCr (message : List Char)
  | composerHolds (message : List Char)
  | poll (offset : Nat)
  | reread (offset : Nat)
  | nowMs
  | sleep (ms : Nat)
  | emit (payload : Payload)
deriving DecidableEq, Repr

@[reducible] def Answer : Query → Type
  | .fileLen => Option Nat
  | .muxSend _ | .acceptedThenCr _ | .composerHolds _ => Bool
  | .poll _ | .reread _ => Except String (List (List Char))
  | .nowMs => Int
  | .sleep _ | .emit _ => Unit

abbrev SendM := Dialog Query Answer

abbrev History := List (Exchange Query Answer)

abbrev ask (q : Query) : SendM (Answer q) := Dialog.query q

/-! ### Outcomes -/

inductive PayloadVerifyOutcome where
  | verified
  | truncated (expected recorded : Nat)
  | noRecord
  | unattributable
  | sourceUnavailable (why : String)
deriving DecidableEq, Repr

def truncSignaturePrefix : Nat := 64

def truncSubstringFloor : Nat := 16

/-- A record that is a piece of the message: from its front, or long enough to be no accident. -/
def carriesTruncationSignature (record message : List Char) : Bool :=
  let rec_ := encodeUtf8 record
  let msg := encodeUtf8 message
  if rec_.isEmpty || msg.length ≤ rec_.length then false
  else if rec_.take (min rec_.length truncSignaturePrefix) =
      msg.take (min rec_.length truncSignaturePrefix) then true
  else decide (truncSubstringFloor ≤ rec_.length) && decide (record <:+: message)

def truncatedLengths (records : List (List Char)) (message : List Char) : List Nat :=
  (records.filter fun r => carriesTruncationSignature r message).map fun r => (encodeUtf8 r).length

/-- `longest_truncation_signature`. Of two that are equally long the last is taken. -/
def longestTruncationSignature (records : List (List Char)) (message : List Char) :
    Option (List Char) :=
  (records.filter fun r => carriesTruncationSignature r message).foldl
    (fun best r => match best with
      | none => some r
      | some b => if (encodeUtf8 b).length ≤ (encodeUtf8 r).length then some r else some b) none

/-- What the last successful read says when the budget is gone. -/
def budgetEnd (message : List Char) (lastRecords : Option (List (List Char)))
    (lastReason : Option String) : PayloadVerifyOutcome :=
  match lastRecords with
  | none => .sourceUnavailable (lastReason.getD "transcript unreadable")
  | some [] => .noRecord
  | some records =>
      match (truncatedLengths records message).max? with
      | some recorded => .truncated (encodeUtf8 message).length recorded
      | none => .unattributable

/-! ### The loops

A loop ends when its time is over. `polls` bounds how often it looks before that; nothing is
said of the bound. -/

/-- The end of a round: the budget is gone, or the next round comes after a sleep. -/
def pollAgain (deadline : Int) (pollMs least : Nat) (budgetGone : PayloadVerifyOutcome)
    (next : SendM PayloadVerifyOutcome) : SendM PayloadVerifyOutcome := do
  let now : Int ← ask .nowMs
  if deadline ≤ now then return budgetGone
  let now : Int ← ask .nowMs
  let _ ← ask (.sleep (max (min pollMs (deadline - now).toNat) least))
  next

def verifyPoll (message : List Char) (offset : Nat) (deadline : Int) (pollMs : Nat) :
    Nat → Option (List (List Char)) → Option String → SendM PayloadVerifyOutcome
  | 0, lastRecords, lastReason => pure (budgetEnd message lastRecords lastReason)
  | polls + 1, lastRecords, lastReason => do
      let read : Except String (List (List Char)) ← ask (.poll offset)
      match read with
      | .ok texts =>
          if texts.any (· == message) then return .verified
          pollAgain deadline pollMs 0 (budgetEnd message (some texts) lastReason)
            (verifyPoll message offset deadline pollMs polls (some texts) lastReason)
      | .error reason =>
          pollAgain deadline pollMs 0 (budgetEnd message lastRecords (some reason))
            (verifyPoll message offset deadline pollMs polls lastRecords (some reason))

def verifyChunkedPayload (message : List Char) (offset timeoutS pollMs polls : Nat) :
    SendM PayloadVerifyOutcome := do
  let now : Int ← ask .nowMs
  verifyPoll message offset (now + timeoutS * 1000) pollMs polls none none

structure DeferredSeen where
  sawFloor : Bool := false
  ambiguous : Bool := false
  lastReason : Option String := none

def DeferredSeen.outcome (seen : DeferredSeen) (unresolvedReason : String) : PayloadVerifyOutcome :=
  if seen.ambiguous then .unattributable
  else if seen.sawFloor then .noRecord
  else .sourceUnavailable (seen.lastReason.getD unresolvedReason)

/-- `deferred_verify_floor_core`, with the floor that `resolve_path` and `first_user_offset`
come to. -/
def deferredPoll (floor : SendM (Option Nat)) (message : List Char) (deadline : Int) (pollMs : Nat)
    (unresolvedReason : String) : Nat → DeferredSeen → SendM PayloadVerifyOutcome
  | 0, seen => pure (seen.outcome unresolvedReason)
  | polls + 1, seen => do
      let again (seen : DeferredSeen) : SendM PayloadVerifyOutcome :=
        pollAgain deadline pollMs 1 (seen.outcome unresolvedReason)
          (deferredPoll floor message deadline pollMs unresolvedReason polls seen)
      match ← floor with
      | none => again seen
      | some offset => do
          let read : Except String (List (List Char)) ← ask (.poll offset)
          match read with
          | .ok texts =>
              let ambiguous := seen.ambiguous || decide (2 ≤ texts.count message)
              if texts.count message = 1 then return .verified
              again { seen with sawFloor := true, ambiguous := ambiguous }
          | .error reason => again { seen with sawFloor := true, lastReason := some reason }

def deferredVerifyBusyQueued (message : List Char) (preSendOffset timeoutS pollMs polls : Nat) :
    SendM PayloadVerifyOutcome := do
  let now : Int ← ask .nowMs
  deferredPoll (pure (some preSendOffset)) message (now + timeoutS * 1000) pollMs
    "busy-queued transcript never resolved within the deferred window" polls {}

end QuorumDispatch.Pty
