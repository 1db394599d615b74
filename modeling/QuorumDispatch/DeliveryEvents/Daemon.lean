import QuorumDispatch.DeliveryEvents.Record
import QuorumDispatch.Lib.Text

/-!
What the daemon lanes write into the log of the target when the resident has taken a send.
-/

namespace QuorumDispatch.DeliveryEvents

open Lib

variable (sha256Hex : Bytes → String)

/-- `emit_daemon_send_events`, with the `HOME` that leads to the log. Without one nothing is
written. -/
def emitDaemonSendEvents (home : Option String) (message : List Char) (turnId sendPath : String) :
    List Payload :=
  match home.filter (!·.isEmpty) with
  | none => []
  | some _ =>
      let contentSha256 := sha256Hex (encodeUtf8 message)
      [.sendInitiated {
        sendId := turnId
        verb := "send:relay"
        sendPath := sendPath
        contentSha256 := contentSha256
        contentLen := UInt64.ofNat (encodeUtf8 message).length
        chunks := 1
        chunkSha256s := [contentSha256]
        chunkSha256sCapped := false
        transcript := none
        transcriptOffset := none
        contentPreview := none }, .turnAccepted turnId contentSha256]

def sendIds (log : List Payload) : List String :=
  log.filterMap fun
    | .sendInitiated fields => some fields.sendId
    | _ => none

@[simp] theorem sendIds_append (log log' : List Payload) :
    sendIds (log ++ log') = sendIds log ++ sendIds log' :=
  List.filterMap_append

variable {sha256Hex} {home : Option String} {message : List Char} {turnId sendPath : String}

theorem sendIds_emitDaemonSendEvents :
    sendIds (emitDaemonSendEvents sha256Hex home message turnId sendPath) =
      if (home.filter (!·.isEmpty)).isSome then [turnId] else [] := by
  unfold emitDaemonSendEvents
  cases home.filter (!·.isEmpty) <;> rfl

end QuorumDispatch.DeliveryEvents
