import QuorumDispatch.Acp.Turns

/-!
The wire between the resident and its clients: events and errors as JSON, and the requests
that the serve loop dispatches to the resident. Texts and frames of the web socket stand
for the JSON values that they carry.
-/

namespace QuorumDispatch.Acp

open Lib

namespace StopReason

def asWire : StopReason → String
  | .endTurn => "end_turn"
  | .maxTokens => "max_tokens"
  | .maxTurnRequests => "max_turn_requests"
  | .refusal => "refusal"
  | .cancelled => "cancelled"

def parse (s : String) : Option StopReason :=
  match s with
  | "end_turn" => some .endTurn
  | "max_tokens" => some .maxTokens
  | "max_turn_requests" => some .maxTurnRequests
  | "refusal" => some .refusal
  | "cancelled" => some .cancelled
  | _ => none

end StopReason

def encodeEvent : AcpEvent → Json
  | .update session kind payload =>
      .obj [("t", .str "update"), ("session", .str session), ("kind", .str kind), ("payload", payload)]
  | .terminal session turn stop =>
      .obj [("t", .str "terminal"), ("session", .str session), ("turn", .str turn),
        ("stop", .str stop.asWire)]
  | .terminalError session turn message =>
      .obj [("t", .str "terminal_error"), ("session", .str session), ("turn", .str turn),
        ("message", .str message)]

def strFieldD (v : Json) (key : String) : String := (v.strField key).getD ""

def decodeEvent (v : Json) : Except AcpError AcpEvent :=
  match v.strField "t" with
  | none => .error (.protocol "event frame missing discriminator")
  | some "update" =>
      .ok (.update (strFieldD v "session") (strFieldD v "kind") ((v.get "payload").getD .null))
  | some "terminal" =>
      match (v.strField "stop").bind StopReason.parse with
      | some stop => .ok (.terminal (strFieldD v "session") (strFieldD v "turn") stop)
      | none => .error (.protocol "terminal event had no mappable stop")
  | some "terminal_error" =>
      .ok (.terminalError (strFieldD v "session") (strFieldD v "turn") (strFieldD v "message"))
  | some other => .error (.protocol ("unknown event kind " ++ reprStr other))

theorem decodeEvent_encodeEvent (event : AcpEvent) : decodeEvent (encodeEvent event) = .ok event := by
  cases event with
  | update session kind payload => rfl
  | terminal session turn stop => cases stop <;> rfl
  | terminalError session turn message => rfl

def encodeErr : AcpError → Json
  | .closed => .obj [("k", .str "closed"), ("m", .str "acp connection closed")]
  | .transport s => .obj [("k", .str "transport"), ("m", .str s)]
  | .protocol s => .obj [("k", .str "protocol"), ("m", .str s)]
  | .queueFull => .obj [("k", .str "queuefull"), ("m", .str "acp outbound queue full")]

def decodeErr (v : Json) : AcpError :=
  match v.strField "k" with
  | some "closed" => .closed
  | some "queuefull" => .queueFull
  | some "protocol" => .protocol (strFieldD v "m")
  | _ => .transport (strFieldD v "m")

theorem decodeErr_encodeErr (e : AcpError) : decodeErr (encodeErr e) = e := by
  cases e <;> rfl

/-! ### Requests -/

inductive Request where
  | prompt (text sender : String)
  | cancel
  | nextUpdate (timeoutMs : Nat)
  | status
deriving DecidableEq, Repr

/-- `send_request`: the frame of a request, with its id. -/
def Request.frame (id : Nat) : Request → Json
  | .prompt text sender =>
      .obj [("text", .str text), ("from", .str sender), ("id", .num id), ("m", .str "prompt")]
  | .cancel => .obj [("id", .num id), ("m", .str "cancel")]
  | .nextUpdate timeoutMs =>
      .obj [("timeout_ms", .num timeoutMs), ("id", .num id), ("m", .str "next_update")]
  | .status => .obj [("id", .num id), ("m", .str "status")]

/-- The answers of the bridge to the requests that open a session. -/
structure Handshake where
  greeting : Except AcpError Json
  newSession : String → Except AcpError String

def updateReply : Except AcpError (Option AcpEvent) → Except AcpError Json
  | .ok (some event) => .ok (.obj [("event", encodeEvent event)])
  | .ok none => .ok (.obj [("event", .null)])
  | .error e => .error e

/-- `dispatch_request`. `received` is what a receive from the bus meets with. -/
def dispatchRequest? (bridge : Handshake) (received : Received) (s : Driven) (req : Json) :
    Option (Except AcpError Json × Driven) :=
  match req.strField "m" with
  | none => some (.error (.protocol "request missing method"), s)
  | some "initialize" => some (bridge.greeting, s)
  | some "new_session" =>
      match bridge.newSession ((req.strField "cwd").getD ".") with
      | .ok session =>
          some (.ok (.obj [("session", .str session)]), { s with host := s.host.newSession session })
      | .error e => some (.error e, s)
  | some "prompt" => do
      let s' ← s.step? (.prompt (strFieldD req "text") (strFieldD req "from"))
      match s.host.prompt? (strFieldD req "text") (strFieldD req "from") with
      | some (.ok turn, _) => some (.ok (.obj [("turn", .str turn)]), s')
      | some (.error e, _) => some (.error e, s')
      | none => none
  | some "cancel" => do
      let s' ← s.step? .cancel
      match s.host.cancel with
      | (.ok (), _) => some (.ok .null, s')
      | (.error e, _) => some (.error e, s')
  | some "next_update" => do
      let s' ← s.step? (.nextUpdate received)
      some (updateReply (s.host.nextUpdate received).1, s')
  | some "status" =>
      some (.ok (.obj [("session_id", (s.host.session.map Json.str).getD .null),
        ("in_flight", .bool s.host.inFlight)]), s)
  | some other => some (.error (.protocol ("unknown method " ++ reprStr other)), s)

section Dispatch

variable (bridge : Handshake) (received : Received) (s : Driven) (id : Nat)

theorem dispatchRequest?_prompt (text sender : String) {r : Except AcpError Json × Driven}
    (h : dispatchRequest? bridge received s ((Request.prompt text sender).frame id) = some r) :
    s.step? (.prompt text sender) = some r.2 ∧ ∀ v, r.1 = .ok v → v.get "event" = none := by
  obtain ⟨s', hstep, h⟩ := Option.bind_eq_some_iff.mp h
  split at h <;> cases h
  · exact ⟨hstep, fun v hv => by cases hv; rfl⟩
  · exact ⟨hstep, fun v hv => by cases hv⟩

theorem dispatchRequest?_cancel {r : Except AcpError Json × Driven}
    (h : dispatchRequest? bridge received s (Request.cancel.frame id) = some r) :
    s.step? .cancel = some r.2 ∧ ∀ v, r.1 = .ok v → v.get "event" = none := by
  obtain ⟨s', hstep, h⟩ := Option.bind_eq_some_iff.mp h
  split at h <;> cases h
  · exact ⟨hstep, fun v hv => by cases hv; rfl⟩
  · exact ⟨hstep, fun v hv => by cases hv⟩

theorem dispatchRequest?_nextUpdate (timeoutMs : Nat) {r : Except AcpError Json × Driven}
    (h : dispatchRequest? bridge received s ((Request.nextUpdate timeoutMs).frame id) = some r) :
    s.step? (.nextUpdate received) = some r.2 ∧ r.1 = updateReply (s.host.nextUpdate received).1 := by
  obtain ⟨s', hstep, h⟩ := Option.bind_eq_some_iff.mp h
  cases h
  exact ⟨hstep, rfl⟩

theorem dispatchRequest?_status :
    dispatchRequest? bridge received s (Request.status.frame id) =
      some (.ok (.obj [("session_id", (s.host.session.map Json.str).getD .null),
        ("in_flight", .bool s.host.inFlight)]), s) := rfl

end Dispatch

end QuorumDispatch.Acp
