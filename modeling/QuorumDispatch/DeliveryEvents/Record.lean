import QuorumDispatch.Lib.Json

/-!
The vocabulary of the delivery-events ledger: the envelope that every record
carries, the payload kinds with their fields, the terminal set, and the object
that a record is on the wire.

Keys stand in the pinned order: the envelope, the event tag, then the payload.
No payload field reuses a key of the envelope, so each envelope key is read
back as written.
-/

namespace QuorumDispatch.DeliveryEvents

open Lib

def terminalEvents : List String :=
  ["turn-anchored", "turn-anchored-mismatch", "anchor-timeout", "pending-abandoned",
    "message-seen", "seen-failed", "send-failed"]

def isTerminal (event : String) : Bool := terminalEvents.contains event

def chunkShaCap : Nat := 48

def maxRecordBytes : Nat := 4096

structure Envelope where
  v : UInt32 := 1
  ts : String
  pid : UInt32
  seq : UInt64
  session : Option String := none
  name : Option String := none
  startMs : Option Int64 := none
deriving DecidableEq, Repr

structure Anchor where
  transcript : String
  startOffset : UInt64
  lineIndex : UInt64
deriving DecidableEq, Repr

/-- The `send-initiated` fields, the one payload that the shrink belt edits. -/
structure SendInitiated where
  sendId : String
  verb : String
  sendPath : String
  contentSha256 : String
  contentLen : UInt64
  chunks : UInt32
  chunkSha256s : List String
  chunkSha256sCapped : Bool
  transcript : Option String
  transcriptOffset : Option UInt64
  contentPreview : Option String
deriving DecidableEq, Repr

inductive Payload where
  | sendInitiated (fields : SendInitiated)
  | chunksDelivered (sendId : String) (chunksAcked : UInt32) (ackSource : String)
  | turnAnchored (sendId contentSha256 : String) (anchor : Anchor) (recovered : Bool)
      (attribution : Option String)
  | turnAnchoredMismatch (sendId expectedSha actualSha : String)
      (expectedLen actualLen : UInt64) (recovered : Bool) (attribution : Option String)
  | anchorTimeout (sendId : String) (waitedMs : UInt64)
  | pendingAbandoned (sendId reason : String) (recovered : Option Bool)
      (attribution : Option String)
  | composerCleared (sendId : String)
  | primingReadinessTimeout (waitedMs : UInt64) (phase : String)
  | statusTransition (status source : String)
  | eventsTruncated
  | relayDelivered (sendId contentSha256 : String)
  | turnAccepted (sendId contentSha256 : String)
  | messageSeen (sendId contentSha256 : String)
  | seenFailed (sendId reason : String)
  | sendFailed (sendId : Option String) (contentSha256 reason : String)
  | rungEntered (sessionId rung : String)
  | rungSucceeded (sessionId rung : String)
  | rungTimeout (sessionId rung : String) (waitedMs : UInt64)
  | recoveryCrit (sessionId : String) (consecutiveFailures : UInt32)
deriving DecidableEq, Repr

def optField (key : String) (v : Option Json) : List (String × Json) :=
  (v.map (key, ·)).toList

/-- `insert_opt_str`: an absent or empty text is omitted. -/
def optStr (key : String) (v : Option String) : List (String × Json) :=
  optField key ((v.filter (!·.isEmpty)).map Json.str)

def optTrue (key : String) (set : Bool) : List (String × Json) :=
  optField key (if set then some (.bool true) else none)

def optNum (key : String) (v : Option Int) : List (String × Json) :=
  optField key (v.map Json.num)

def u32 (n : UInt32) : Json := .num n.toNat

def u64 (n : UInt64) : Json := .num n.toNat

def anchorValue (a : Anchor) : Json :=
  .obj [("transcript", .str a.transcript), ("start_offset", u64 a.startOffset),
    ("line_index", u64 a.lineIndex)]

def SendInitiated.entries (f : SendInitiated) (shaCap : Nat) : List (String × Json) :=
  let kept := min f.chunkSha256s.length shaCap
  let capped := f.chunkSha256sCapped || decide (kept < f.chunkSha256s.length)
  [("send_id", .str f.sendId), ("verb", .str f.verb), ("send_path", .str f.sendPath),
    ("content_sha256", .str f.contentSha256), ("content_len", u64 f.contentLen),
    ("chunks", u32 f.chunks),
    ("chunk_sha256s", .arr ((f.chunkSha256s.take kept).map Json.str))] ++
  optTrue "chunk_sha256s_capped" capped ++
  optStr "transcript" f.transcript ++
  optNum "transcript_offset" (f.transcriptOffset.map (·.toNat)) ++
  optStr "content_preview" f.contentPreview

namespace Payload

def eventName : Payload → String
  | sendInitiated .. => "send-initiated"
  | chunksDelivered .. => "chunks-delivered"
  | turnAnchored .. => "turn-anchored"
  | turnAnchoredMismatch .. => "turn-anchored-mismatch"
  | anchorTimeout .. => "anchor-timeout"
  | pendingAbandoned .. => "pending-abandoned"
  | composerCleared .. => "composer-cleared"
  | primingReadinessTimeout .. => "priming-readiness-timeout"
  | statusTransition .. => "status-transition"
  | eventsTruncated => "events-truncated"
  | relayDelivered .. => "relay-delivered"
  | turnAccepted .. => "turn-accepted"
  | messageSeen .. => "message-seen"
  | seenFailed .. => "seen-failed"
  | sendFailed .. => "send-failed"
  | rungEntered .. => "rung-entered"
  | rungSucceeded .. => "rung-succeeded"
  | rungTimeout .. => "rung-timeout"
  | recoveryCrit .. => "recovery-crit"

def isTerminalClass (p : Payload) : Bool :=
  isTerminal p.eventName ||
    match p with
    | primingReadinessTimeout .. | eventsTruncated => true
    | _ => false

def entries (p : Payload) (shaCap : Nat) : List (String × Json) :=
  match p with
  | sendInitiated f => f.entries shaCap
  | chunksDelivered id acked source =>
      [("send_id", .str id), ("chunks_acked", u32 acked), ("ack_source", .str source)]
  | turnAnchored id sha anchor recovered attribution =>
      [("send_id", .str id), ("content_sha256", .str sha), ("anchor", anchorValue anchor)] ++
        optTrue "recovered" recovered ++ optStr "attribution" attribution
  | turnAnchoredMismatch id expectedSha actualSha expectedLen actualLen recovered attribution =>
      [("send_id", .str id), ("expected_sha", .str expectedSha), ("actual_sha", .str actualSha),
        ("expected_len", u64 expectedLen), ("actual_len", u64 actualLen)] ++
        optTrue "recovered" recovered ++ optStr "attribution" attribution
  | anchorTimeout id waited => [("send_id", .str id), ("waited_ms", u64 waited)]
  | pendingAbandoned id reason recovered attribution =>
      [("send_id", .str id), ("reason", .str reason)] ++
        optTrue "recovered" (recovered == some true) ++ optStr "attribution" attribution
  | composerCleared id => [("send_id", .str id)]
  | primingReadinessTimeout waited phase => [("waited_ms", u64 waited), ("phase", .str phase)]
  | statusTransition status source => [("status", .str status), ("source", .str source)]
  | eventsTruncated => []
  | relayDelivered id sha | turnAccepted id sha | messageSeen id sha =>
      [("send_id", .str id), ("content_sha256", .str sha)]
  | seenFailed id reason => [("send_id", .str id), ("reason", .str reason)]
  | sendFailed id sha reason =>
      optStr "send_id" id ++ [("content_sha256", .str sha), ("reason", .str reason)]
  | rungEntered session rung | rungSucceeded session rung =>
      [("session_id", .str session), ("rung", .str rung)]
  | rungTimeout session rung waited =>
      [("session_id", .str session), ("rung", .str rung), ("waited_ms", u64 waited)]
  | recoveryCrit session failures =>
      [("session_id", .str session), ("consecutive_failures", u32 failures)]

/-- The send that a record of this payload is about. The door failure may name
none, and an empty name is omitted like a missing one. -/
def sendId : Payload → Option String
  | sendInitiated f => some f.sendId
  | chunksDelivered id .. | turnAnchored id .. | turnAnchoredMismatch id .. | anchorTimeout id ..
  | pendingAbandoned id .. | composerCleared id | relayDelivered id _ | turnAccepted id _
  | messageSeen id _ | seenFailed id _ => some id
  | sendFailed id _ _ => id.filter (!·.isEmpty)
  | primingReadinessTimeout .. | statusTransition .. | eventsTruncated | rungEntered ..
  | rungSucceeded .. | rungTimeout .. | recoveryCrit .. => none

end Payload

def isTerminalFor (sendId : String) (p : Payload) : Bool :=
  p.sendId == some sendId && isTerminal p.eventName

def Envelope.entries (env : Envelope) : List (String × Json) :=
  [("v", u32 env.v), ("ts", .str env.ts), ("pid", u32 env.pid), ("seq", u64 env.seq)] ++
    optNum "start_ms" (env.startMs.map (·.toInt)) ++ optStr "session" env.session ++
    optStr "name" env.name

def recordEntries (env : Envelope) (payload : Payload) (shaCap : Nat) : List (String × Json) :=
  env.entries ++ ("event", Json.str payload.eventName) :: payload.entries shaCap

/-- `build_record_line`. -/
def buildRecordLine (serde : SerdeJson) (env : Envelope) (payload : Payload) (shaCap : Nat) :
    List Char :=
  serde.toString (.obj (recordEntries env payload shaCap))

/-! ### Reading the fields back -/

@[simp] theorem get_optField (key : String) (v : Option Json) (k : String) :
    (Json.obj (optField key v)).get k = if key = k then v else none := by
  cases v <;> simp [optField, Json.get_obj_cons]

theorem all_optField (q : String → Bool) (key : String) (v : Option Json) :
    (optField key v).all (fun entry => q entry.1) = (v.isNone || q key) := by
  cases v <;> simp [optField]

theorem floatless_optStr (key : String) (v : Option String) : Json.floatlessEntries (optStr key v) = true := by
  rw [optStr]
  cases v.filter (!·.isEmpty) <;> rfl

theorem floatless_optNum (key : String) (v : Option Int) : Json.floatlessEntries (optNum key v) = true := by
  cases v <;> rfl

theorem floatless_optTrue (key : String) (set : Bool) : Json.floatlessEntries (optTrue key set) = true := by
  cases set <;> rfl

theorem floatless_entries (p : Payload) (shaCap : Nat) : Json.floatlessEntries (p.entries shaCap) = true := by
  cases p <;>
    simp [-List.map_take, Payload.entries, SendInitiated.entries, floatless_optStr, floatless_optNum,
      floatless_optTrue, Json.floatlessEntries, Json.floatless, u32, u64, anchorValue]

theorem floatless_recordEntries (env : Envelope) (p : Payload) (shaCap : Nat) :
    (Json.obj (recordEntries env p shaCap)).floatless = true := by
  simp [recordEntries, Envelope.entries, floatless_entries, floatless_optStr, floatless_optNum,
    Json.floatlessEntries, Json.floatless, u32, u64]

def payloadKeys : List String :=
  ["send_id", "verb", "send_path", "content_sha256", "content_len", "chunks", "chunk_sha256s",
    "chunk_sha256s_capped", "transcript", "transcript_offset", "content_preview",
    "chunks_acked", "ack_source", "anchor", "recovered", "attribution", "expected_sha",
    "actual_sha", "expected_len", "actual_len", "waited_ms", "reason", "phase", "status",
    "source", "session_id", "rung", "consecutive_failures"]

theorem all_entries (p : Payload) (shaCap : Nat) :
    (p.entries shaCap).all (fun entry => payloadKeys.contains entry.1) = true := by
  cases p <;>
    simp only [Payload.entries, SendInitiated.entries, optStr, optTrue, optNum,
      List.all_append, List.all_cons, List.all_nil, all_optField] <;>
    simp [payloadKeys]

theorem get_entries_of_notMem {key : String} (h : key ∉ payloadKeys) (p : Payload)
    (shaCap : Nat) : (Json.obj (p.entries shaCap)).get key = none := by
  apply Json.get_obj_of_notMem
  intro hmem
  obtain ⟨entry, hentry, rfl⟩ := List.mem_map.mp hmem
  have hkeys := List.all_eq_true.mp (all_entries p shaCap) entry hentry
  exact h (List.contains_iff_mem.mp hkeys)

theorem get_entries_sendId (p : Payload) (shaCap : Nat) :
    (Json.obj (p.entries shaCap)).get "send_id" = p.sendId.map Json.str := by
  cases p <;>
    simp [Payload.entries, SendInitiated.entries, optStr, optTrue, optNum, Payload.sendId,
      Json.get_obj_append, Json.get_obj_cons]

def envelopeKeys : List String := ["v", "ts", "pid", "seq", "start_ms", "session", "name", "event"]

theorem all_envelope (env : Envelope) (event : String) :
    (env.entries ++ [("event", Json.str event)]).all
      (fun entry => envelopeKeys.contains entry.1) = true := by
  simp only [Envelope.entries, optStr, optNum, List.all_append, List.all_cons, List.all_nil,
    all_optField]
  simp [envelopeKeys]

theorem get_recordEntries_payload (env : Envelope) (p : Payload) (shaCap : Nat) {key : String}
    (h : key ∉ envelopeKeys) :
    (Json.obj (recordEntries env p shaCap)).get key = (Json.obj (p.entries shaCap)).get key := by
  have hnone : (Json.obj (env.entries ++ [("event", Json.str p.eventName)])).get key = none := by
    apply Json.get_obj_of_notMem
    intro hmem
    obtain ⟨entry, hentry, rfl⟩ := List.mem_map.mp hmem
    have hkeys := List.all_eq_true.mp (all_envelope env p.eventName) entry hentry
    exact h (List.contains_iff_mem.mp hkeys)
  rw [recordEntries, ← List.singleton_append, ← List.append_assoc, Json.get_obj_append, hnone,
    Option.or_none]

end QuorumDispatch.DeliveryEvents
