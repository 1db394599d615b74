import QuorumDispatch.Pty.Verify

/-!
`send_mux_pty` of a send that does not wait, on the backend that types into the pane: the length
of the transcript is taken, the text is typed, and the transcript is polled for it.
-/

namespace QuorumDispatch.Pty

open Lib DeliveryEvents

inductive SendPtyAction where
  | sendQueue
  | sendVerify
deriving DecidableEq, Repr

structure PtyParams where
  sendId : String
  message : List Char
  action : SendPtyAction
  strict : Bool := false
  /-- Whether the pid of the session is known. -/
  hasPid : Bool := false
  label : String := ""
  transcript : String := ""
  contentPreview : String := ""
  ackSource : String := "cli-exit"
  /-- How often the transcript is looked at, at most. -/
  polls : Nat := 1
deriving DecidableEq, Repr

structure ChunkAcks where
  total : Nat := 0
  acked : Nat := 0
deriving DecidableEq, Repr

def ChunkAcks.allOk (acks : ChunkAcks) : Bool := acks.acked == acks.total

inductive MuxPtyError where
  | writeFailed (acked total : Nat)
  | stuckComposer
  | notAccepted
  | payloadTruncated (label : String) (expected recorded : Nat)
  | payloadNoRecord (label : String) (timeoutS : Nat)
deriving DecidableEq, Repr

def verifyTimeoutS : Nat := 10

def verifyPollMs : Nat := 500

def busyQueuedVerifyTimeoutS : Nat := 120

def twoWriteSettleMs : Nat := 200

def chunkSettleMs : Nat := 150

/-! ### Typing -/

def sendChunks : List (List Char) → ChunkAcks → SendM ChunkAcks
  | [], acks => pure acks
  | chunk :: rest, acks => do
      if acks.total ≠ 0 then ask (.sleep chunkSettleMs)
      let ok : Bool ← ask (.muxSend chunk)
      sendChunks rest { total := acks.total + 1, acked := acks.acked + ok.toNat }

def twoWrite (message : List Char) : SendM ChunkAcks := do
  let acks ← sendChunks (chunkText message chunkBytes) {}
  ask (.sleep twoWriteSettleMs)
  let _ ← ask (.muxSend ['\r'])
  return acks

variable (sha256Hex : Bytes → String)

def initiated (p : PtyParams) (startOffset : Nat) : Payload :=
  let chunks := chunkText p.message chunkBytes
  .sendInitiated {
    sendId := p.sendId
    verb := "send:pty"
    sendPath := match p.action with
      | .sendQueue => "busy-queued"
      | .sendVerify => "idle"
    contentSha256 := sha256Hex (encodeUtf8 p.message)
    contentLen := UInt64.ofNat (encodeUtf8 p.message).length
    chunks := UInt32.ofNat chunks.length
    chunkSha256s := chunks.map fun chunk => sha256Hex (encodeUtf8 chunk)
    chunkSha256sCapped := false
    transcript := some p.transcript
    transcriptOffset := some (UInt64.ofNat startOffset)
    contentPreview := some p.contentPreview }

def chunksDelivered (p : PtyParams) (acks : ChunkAcks) : Payload :=
  .chunksDelivered p.sendId (UInt32.ofNat acks.acked) p.ackSource

def messageSeen (p : PtyParams) : Payload :=
  .messageSeen p.sendId (sha256Hex (encodeUtf8 p.message))

/-- `emit_w8_mismatch`. -/
def emitMismatch (p : PtyParams) (startOffset expected recorded : Nat) : SendM Unit := do
  let read : Except String (List (List Char)) ← ask (.reread startOffset)
  let actual := (read.toOption.bind (longestTruncationSignature · p.message)).map
    fun r => sha256Hex (encodeUtf8 r)
  ask (.emit (.turnAnchoredMismatch p.sendId (sha256Hex (encodeUtf8 p.message)) (actual.getD "")
    (UInt64.ofNat expected) (UInt64.ofNat recorded) false none))

/-! ### The send -/

/-- The return is sent once more while the composer still holds the text. What comes back is
whether it still does. -/
def remediate (p : PtyParams) : SendM Bool := do
  let held : Bool ← ask (.composerHolds p.message)
  if held = false then return false
  let _ ← ask (.muxSend ['\r'])
  ask (.sleep twoWriteSettleMs)
  let stuck : Bool ← ask (.composerHolds p.message)
  if stuck = false then ask (.emit (.composerCleared p.sendId))
  return stuck

def deliverQueued (p : PtyParams) : SendM (Except MuxPtyError Unit) := do
  let acks ← twoWrite p.message
  if acks.allOk = false then return .error (.writeFailed acks.acked acks.total)
  ask (.emit (chunksDelivered p acks))
  let stuck ← remediate p
  if stuck && p.strict then return .error .stuckComposer
  return .ok ()

/-- The idle arm, up to the verify. What comes back is whether the read-back is to be made. -/
def deliverIdle (p : PtyParams) : SendM (Except MuxPtyError Bool) := do
  let acks ← twoWrite p.message
  -- without a pid there is no status to see the session go busy by
  let accepted : Bool ← if p.hasPid then ask (.acceptedThenCr p.message) else pure true
  if acks.allOk = false then return .error (.writeFailed acks.acked acks.total)
  ask (.emit (chunksDelivered p acks))
  if !accepted && p.strict then return .error .notAccepted
  return .ok accepted

def concludeIdle (p : PtyParams) (startOffset : Nat) :
    PayloadVerifyOutcome → SendM (Except MuxPtyError Unit)
  | .verified => do
      ask (.emit (messageSeen sha256Hex p))
      return .ok ()
  | .truncated expected recorded => do
      if payloadNeedsVerify p.message then
        emitMismatch sha256Hex p startOffset expected recorded
        return .error (.payloadTruncated p.label expected recorded)
      return .ok ()
  | .noRecord =>
      if payloadNeedsVerify p.message then
        pure (.error (.payloadNoRecord p.label verifyTimeoutS))
      else pure (.ok ())
  | .unattributable | .sourceUnavailable _ => pure (.ok ())

def concludeQueued (p : PtyParams) : PayloadVerifyOutcome → SendM (Except MuxPtyError Unit)
  | .verified => do
      ask (.emit (messageSeen sha256Hex p))
      return .ok ()
  | _ => pure (.ok ())

def sendFrom (p : PtyParams) (startOffset : Nat) : SendM (Except MuxPtyError Unit) := do
  ask (.emit (initiated sha256Hex p startOffset))
  match p.action with
  | .sendQueue =>
      match ← deliverQueued p with
      | .error e => return .error e
      | .ok () =>
          let outcome ← deferredVerifyBusyQueued p.message startOffset busyQueuedVerifyTimeoutS
            verifyPollMs p.polls
          concludeQueued sha256Hex p outcome
  | .sendVerify =>
      match ← deliverIdle p with
      | .error e => return .error e
      | .ok false => return .ok ()
      | .ok true =>
          let outcome ← verifyChunkedPayload p.message startOffset verifyTimeoutS verifyPollMs p.polls
          concludeIdle sha256Hex p startOffset outcome

def sendMuxPty (p : PtyParams) : SendM (Except MuxPtyError Unit) := do
  let len : Option Nat ← ask .fileLen
  sendFrom sha256Hex p (len.getD 0)

end QuorumDispatch.Pty
