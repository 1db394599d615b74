import QuorumDispatch.Lib.Dialog
import QuorumDispatch.Provider.Attribution

/-!
`CodexProvider::inject`: the ladder that puts one message into a thread of the app server. The
turn that the caller believes open is steered, and a thread that is believed idle gets a new
turn; where the server says that the belief is wrong, the other request is made once.
-/

namespace QuorumDispatch.Codex

open Lib Provider

/-! ### The app server -/

structure ServerError where
  code : Int64
  message : String
deriving DecidableEq, Repr

/-- The code of the stale fence, and of a start into a busy thread. -/
def invalidRequestCode : Int64 := -32600

inductive RpcError where
  | transport (text : String)
  | protocol (e : ServerError)
  | timeout
  | closed
deriving DecidableEq, Repr

def RpcError.display : RpcError → String
  | .transport text => "transport error: " ++ text
  | .protocol e => "protocol error " ++ toString e.code ++ ": " ++ e.message
  | .timeout => "rpc timed out waiting for a response"
  | .closed => "connection closed before a response arrived"

structure TurnDescriptor where
  id : String := ""
deriving DecidableEq, Repr

structure TurnResult where
  turn : Option TurnDescriptor := none
  turnIdFlat : Option String := none
deriving DecidableEq, Repr

def TurnResult.turnId (r : TurnResult) : Option String :=
  match r.turnIdFlat.filter (!·.isEmpty) with
  | some id => some id
  | none => (r.turn.map (·.id)).filter (!·.isEmpty)

inductive Loss where
  | transport (text : String)
  | timeout
  | closed
deriving DecidableEq, Repr

def Loss.error : Loss → RpcError
  | .transport text => .transport text
  | .timeout => .timeout
  | .closed => .closed

/-- What the server does with a request, and what comes back. A result is parsed by the client,
and may not parse; of a request that is lost only the server knows whether it was accepted. -/
inductive Reply where
  | result (parsed : Except String TurnResult)
  | refused (e : ServerError)
  | lost (why : Loss) (accepted : Bool)

namespace Reply

def accepted : Reply → Bool
  | result _ => true
  | refused _ => false
  | lost _ accepted => accepted

def answered : Reply → Option String
  | result (.ok r) => r.turnId
  | _ => none

def unclear (r : Reply) : Bool :=
  match r with
  | refused _ => false
  | _ => r.answered.isNone

/-- The end of `turn_start` and `turn_steer`: the turn id out of the response. -/
def toTurnId (method : String) : Reply → Except RpcError String
  | refused e => .error (.protocol e)
  | lost why _ => .error why.error
  | result (.error e) => .error (.transport (method ++ " result parse: " ++ e))
  | result (.ok r) =>
      match r.turnId with
      | some id => .ok id
      | none => .error (.transport (method ++ " result had no turn id"))

end Reply

inductive RolloutLine where
  | taskStarted (turnId : Option String)
  | taskComplete (turnId : Option String)
  | other
deriving DecidableEq, Repr

/-- One line of `open_turns`. -/
def trackTurn (opened : List String) : RolloutLine → List String
  | .taskStarted turnId => opened ++ [turnId.getD ""]
  | .taskComplete turnId =>
      -- a completion without its start closes the oldest open turn
      if turnId.getD "" ∈ opened then opened.erase (turnId.getD "") else opened.drop 1
  | .other => opened

def openTurns (lines : List RolloutLine) : List String := lines.foldl trackTurn []

def openTurnId (lines : List RolloutLine) : Option String :=
  (openTurns lines).reverse.find? (!·.isEmpty)

/-! ### Requests -/

inductive Query where
  | turnStart (threadId : String) (text : List Char)
  | turnSteer (threadId expectedTurnId : String) (text : List Char)
  | rollout (threadId : String)
deriving DecidableEq, Repr

@[reducible] def Answer : Query → Type
  | .turnStart .. | .turnSteer .. => Reply
  | .rollout _ => Option (List RolloutLine)

abbrev Rpc := Dialog Query Answer

abbrev History := List (Exchange Query Answer)

inductive SteerOutcome where
  | steered (turnId : String)
  | staleTurn (e : ServerError)
deriving DecidableEq, Repr

def turnStart (threadId : String) (text : List Char) : Rpc (Except RpcError String) := do
  let reply ← Dialog.query (.turnStart threadId text)
  return Reply.toTurnId "turn/start" reply

def steerOutcome : Except RpcError String → Except RpcError SteerOutcome
  | .ok id => .ok (.steered id)
  | .error (.protocol e) =>
      if e.code = invalidRequestCode then .ok (.staleTurn e) else .error (.protocol e)
  | .error other => .error other

def turnSteer (threadId expectedTurnId : String) (text : List Char) :
    Rpc (Except RpcError SteerOutcome) := do
  let reply ← Dialog.query (.turnSteer threadId expectedTurnId text)
  return steerOutcome (Reply.toTurnId "turn/steer" reply)

def rereadOpenTurnId (threadId : String) : Rpc (Option String) := do
  let lines : Option (List RolloutLine) ← Dialog.query (Query.rollout threadId)
  return lines.bind openTurnId

inductive InjectError where
  | noTransport (key : String)
  | precondition (text : String)
deriving DecidableEq, Repr

def sendFailed (e : RpcError) : InjectError := .precondition ("send failed: " ++ e.display)

/-- `inject`, with the app server if there is one, and the turn that is believed open. -/
def inject (appServer : Bool) (expectedTurnId : Option String) (threadId : String)
    (message sender : List Char) : Rpc (Except InjectError String) :=
  if appServer = false then pure (.error (.noTransport threadId)) else
  let wire := attributed message sender
  match expectedTurnId with
  | some expected => do
      match ← turnSteer threadId expected wire with
      | .ok (.steered turnId) => return .ok turnId
      | .ok (.staleTurn _) =>
          let started ← turnStart threadId wire
          return started.mapError sendFailed
      | .error e => return .error (sendFailed e)
  | none => do
      match ← turnStart threadId wire with
      | .ok turnId => return .ok turnId
      | .error (.protocol e) =>
          if e.code = invalidRequestCode then
            let refused := sendFailed (.protocol e)
            match ← rereadOpenTurnId threadId with
            | none => return .error refused
            | some opened =>
                match ← turnSteer threadId opened wire with
                | .ok (.steered turnId) => return .ok turnId
                | .ok (.staleTurn _) => return .error refused
                | .error e2 => return .error (sendFailed e2)
          else return .error (sendFailed (.protocol e))
      | .error e => return .error (sendFailed e)

/-! ### What one call does -/

def Query.wire? : Query → Option (List Char)
  | .turnStart _ text | .turnSteer _ _ text => some text
  | .rollout _ => none

def reply? : Exchange Query Answer → Option Reply
  | ⟨.turnStart .., reply⟩ => some reply
  | ⟨.turnSteer .., reply⟩ => some reply
  | ⟨.rollout _, _⟩ => none

def replies (h : History) : List Reply := h.filterMap reply?

def texts (h : History) : List (List Char) := h.filterMap (·.question.wire?)

/-- What is asked of one call: the requests, how many the server takes, and what the result
says about that. -/
structure OneSend (wire : List Char) (r : Except InjectError String) (h : History) : Prop where
  wire : ∀ text ∈ texts h, text = wire
  atMostTwo : (replies h).length ≤ 2
  once : ((replies h).filter Reply.accepted).length ≤ 1
  ok : ∀ id, r = .ok id ↔ ∃ reply ∈ replies h, reply.answered = some id
  refused : (∃ e, r = .error e) → (∀ reply ∈ replies h, reply.unclear = false) →
    ∀ reply ∈ replies h, reply.accepted = false

theorem Reply.answered_of_ok {method id : String} {reply : Reply}
    (h : reply.toTurnId method = .ok id) : reply.answered = some id := by
  rcases reply with (text | r) | e | ⟨why, accepted⟩
  case result.ok =>
      cases hid : r.turnId with
      | some id' =>
          simp only [toTurnId, hid] at h
          cases h
          exact hid
      | none => simp [toTurnId, hid] at h
  all_goals cases h

theorem Reply.answered_of_error {method : String} {e : RpcError} {reply : Reply}
    (h : reply.toTurnId method = .error e) : reply.answered = none := by
  rcases reply with (text | r) | e | ⟨why, accepted⟩
  case result.ok =>
      cases hid : r.turnId with
      | some id' => simp [toTurnId, hid] at h
      | none => exact hid
  all_goals rfl

theorem Reply.refused_of_protocol {method : String} {e : ServerError} {reply : Reply}
    (h : reply.toTurnId method = .error (.protocol e)) : reply = .refused e := by
  rcases reply with (text | r) | e | ⟨why, accepted⟩
  case result.ok => cases hid : r.turnId <;> simp [toTurnId, hid] at h
  case result.error => cases h
  case refused => cases h; rfl
  case lost => cases why <;> simp [toTurnId, Loss.error] at h

theorem Reply.accepted_eq_false {reply : Reply} (hnone : reply.answered = none)
    (hclear : reply.unclear = false) : reply.accepted = false := by
  rcases reply with parsed | e | ⟨why, accepted⟩
  case refused => rfl
  all_goals simp [Reply.unclear, hnone] at hclear

theorem steered_iff {r : Except RpcError String} {id : String} :
    steerOutcome r = .ok (.steered id) ↔ r = .ok id := by
  rcases r with (text | e | _ | _) | id'
  case error.protocol =>
      simp only [steerOutcome]
      split <;> simp
  all_goals simp [steerOutcome]

theorem protocol_of_staleTurn {r : Except RpcError String} {e : ServerError}
    (h : steerOutcome r = .ok (.staleTurn e)) : r = .error (.protocol e) := by
  rcases r with (text | e' | _ | _) | id'
  case error.protocol =>
      simp only [steerOutcome] at h
      split at h <;> cases h
      rfl
  all_goals cases h

theorem error_of_steerOutcome {r : Except RpcError String} {e : RpcError}
    (h : steerOutcome r = .error e) : r = .error e := by
  rcases r with (text | e' | _ | _) | id'
  case error.protocol =>
      simp only [steerOutcome] at h
      split at h <;> cases h
      rfl
  case ok => cases h
  all_goals cases h; rfl

theorem oneSend_of_last {wire : List Char} {r : Except InjectError String} {h : History}
    (front : List Reply) (last : Reply)
    (hwire : ∀ text ∈ texts h, text = wire)
    (hreplies : replies h = front ++ [last]) (hlength : front.length ≤ 1)
    (hfront : ∀ x ∈ front, ∃ e, x = .refused e)
    (hlast : ∀ id, r = .ok id ↔ last.answered = some id) : OneSend wire r h where
  wire := hwire
  atMostTwo := by
    rw [hreplies, List.length_append]
    exact Nat.add_le_add_right hlength 1
  once := by
    have hnone : front.filter Reply.accepted = [] := by
      rw [List.filter_eq_nil_iff]
      intro x hx
      obtain ⟨e, rfl⟩ := hfront x hx
      simp [Reply.accepted]
    rw [hreplies, List.filter_append, hnone]
    exact List.length_filter_le _ _
  ok := by
    intro id
    rw [hlast, hreplies]
    refine ⟨fun h => ⟨last, by simp, h⟩, fun ⟨x, hx, hid⟩ => ?_⟩
    rcases List.mem_append.mp hx with hx | hx
    · obtain ⟨e, rfl⟩ := hfront x hx
      cases hid
    · rwa [← List.mem_singleton.mp hx]
  refused := by
    rintro ⟨e, rfl⟩ hclear x hx
    have hnone : last.answered = none := by
      rw [Option.eq_none_iff_forall_ne_some]
      intro id hid
      cases (hlast id).mpr hid
    have hx' := hx
    rw [hreplies] at hx'
    rcases List.mem_append.mp hx' with hx' | hx'
    · obtain ⟨e', rfl⟩ := hfront x hx'
      rfl
    · rw [List.mem_singleton.mp hx'] at hx ⊢
      exact Reply.accepted_eq_false hnone (hclear last hx)

theorem ok_iff_answered {method : String} {reply : Reply} {f : RpcError → InjectError} (id : String) :
    (reply.toTurnId method).mapError f = .ok id ↔ reply.answered = some id := by
  cases hid : reply.toTurnId method with
  | ok id' => simp [Except.mapError, Reply.answered_of_ok hid]
  | error e => simp [Except.mapError, Reply.answered_of_error hid]

/-! The runs of a program that begins with a request. -/

section Runs

variable {threadId turn : String} {wire : List Char} {α : Type} {r : α} {h : History}

theorem returns_turnStart {f : Except RpcError String → Rpc α} :
    (turnStart threadId wire >>= f).Returns h r ↔
      ∃ reply es, h = ⟨.turnStart threadId wire, reply⟩ :: es ∧
        (f (Reply.toTurnId "turn/start" reply)).Returns es r :=
  Dialog.returns_ask

theorem returns_turnSteer {f : Except RpcError SteerOutcome → Rpc α} :
    (turnSteer threadId turn wire >>= f).Returns h r ↔
      ∃ reply es, h = ⟨.turnSteer threadId turn wire, reply⟩ :: es ∧
        (f (steerOutcome (Reply.toTurnId "turn/steer" reply))).Returns es r :=
  Dialog.returns_ask

theorem returns_reread {f : Option String → Rpc α} :
    (rereadOpenTurnId threadId >>= f).Returns h r ↔
      ∃ (lines : Option (List RolloutLine)) (es : History), h = ⟨.rollout threadId, lines⟩ :: es ∧
        (f (lines.bind openTurnId)).Returns es r :=
  Dialog.returns_ask

end Runs

theorem ends_of_steer {reply : Reply} {e : InjectError} {r : Except InjectError String} {h : History}
    (hrun : Dialog.Returns (match steerOutcome (Reply.toTurnId "turn/steer" reply) with
      | .ok (.steered turnId) => (pure (.ok turnId) : Rpc (Except InjectError String))
      | .ok (.staleTurn _) => pure (.error e)
      | .error e2 => pure (.error (sendFailed e2))) h r) :
    h = [] ∧ ∀ id, r = .ok id ↔ reply.answered = some id := by
  split at hrun
  case h_1 turnId hsteer =>
      obtain ⟨rfl, rfl⟩ := Dialog.returns_pure.mp hrun
      exact ⟨rfl, by simp [Reply.answered_of_ok (steered_iff.mp hsteer)]⟩
  case h_2 hsteer =>
      obtain ⟨rfl, rfl⟩ := Dialog.returns_pure.mp hrun
      exact ⟨rfl, by simp [Reply.answered_of_error (protocol_of_staleTurn hsteer)]⟩
  case h_3 hsteer =>
      obtain ⟨rfl, rfl⟩ := Dialog.returns_pure.mp hrun
      exact ⟨rfl, by simp [Reply.answered_of_error (error_of_steerOutcome hsteer)]⟩

theorem oneSend_of_only {reply : Reply} {wire : List Char}
    {r : Except InjectError String} {h : History} (hwire : ∀ text ∈ texts h, text = wire)
    (hreplies : replies h = [reply]) (hreply : ∀ id, r = .ok id ↔ reply.answered = some id) :
    OneSend wire r h :=
  oneSend_of_last [] reply hwire hreplies (Nat.zero_le 1) (by simp) hreply

/-- **One call of `inject`**, for every belief and every behaviour of the server and the rollout:
at most two requests, with one text; at most one of them accepted; an id exactly when a request
was answered with it; and an error whose requests were all answered clearly means that none was
accepted. -/
theorem inject_oneSend (appServer : Bool) (expectedTurnId : Option String) (threadId : String)
    (message sender : List Char) {r : Except InjectError String} {h : History}
    (hrun : (inject appServer expectedTurnId threadId message sender).Returns h r) :
    OneSend (attributed message sender) r h := by
  cases appServer with
  | false =>
      obtain ⟨rfl, rfl⟩ := Dialog.returns_pure.mp hrun
      constructor <;> simp [replies, texts]
  | true =>
      cases expectedTurnId with
      | some expected =>
          obtain ⟨first, es, rfl, hrest⟩ := returns_turnSteer.mp hrun
          split at hrest
          case h_1 turnId hsteer =>
              obtain ⟨rfl, rfl⟩ := Dialog.returns_pure.mp hrest
              have hid := Reply.answered_of_ok (steered_iff.mp hsteer)
              exact oneSend_of_only (by simp [texts, Query.wire?]) rfl (by simp [hid])
          case h_2 e hsteer =>
              obtain ⟨second, es', rfl, hlast⟩ := returns_turnStart.mp hrest
              obtain ⟨rfl, rfl⟩ := Dialog.returns_pure.mp hlast
              have hfirst := Reply.refused_of_protocol (protocol_of_staleTurn hsteer)
              exact oneSend_of_last [first] second (by simp [texts, Query.wire?]) rfl
                (Nat.le_refl 1) (by simp [hfirst]) ok_iff_answered
          case h_3 e hsteer =>
              obtain ⟨rfl, rfl⟩ := Dialog.returns_pure.mp hrest
              have hnone := Reply.answered_of_error (error_of_steerOutcome hsteer)
              exact oneSend_of_only (by simp [texts, Query.wire?]) rfl (by simp [hnone])
      | none =>
          obtain ⟨first, es, rfl, hrest⟩ := returns_turnStart.mp hrun
          split at hrest
          case h_1 turnId hstart =>
              obtain ⟨rfl, rfl⟩ := Dialog.returns_pure.mp hrest
              have hid := Reply.answered_of_ok hstart
              exact oneSend_of_only (by simp [texts, Query.wire?]) rfl (by simp [hid])
          case h_2 e hstart =>
              have hfirst := Reply.refused_of_protocol hstart
              have hnone := Reply.answered_of_error hstart
              split at hrest
              case isTrue hbusy =>
                  obtain ⟨lines, es', rfl, hread⟩ := returns_reread.mp hrest
                  split at hread
                  case h_1 hopen =>
                      obtain ⟨rfl, rfl⟩ := Dialog.returns_pure.mp hread
                      exact oneSend_of_only (by simp [texts, Query.wire?]) rfl (by simp [hnone])
                  case h_2 opened hopen =>
                      obtain ⟨second, es'', rfl, hlast⟩ := returns_turnSteer.mp hread
                      obtain ⟨rfl, hends⟩ := ends_of_steer hlast
                      exact oneSend_of_last [first] second (by simp [texts, Query.wire?]) rfl
                        (Nat.le_refl 1) (by simp [hfirst]) hends
              case isFalse hother =>
                  obtain ⟨rfl, rfl⟩ := Dialog.returns_pure.mp hrest
                  exact oneSend_of_only (by simp [texts, Query.wire?]) rfl (by simp [hnone])
          case h_3 e hstart =>
              obtain ⟨rfl, rfl⟩ := Dialog.returns_pure.mp hrest
              have hnone := Reply.answered_of_error hstart
              exact oneSend_of_only (by simp [texts, Query.wire?]) rfl (by simp [hnone])

end QuorumDispatch.Codex
