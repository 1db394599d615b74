import QuorumDispatch.DeliveryEvents.Daemon
import QuorumDispatch.Lib.Dialog
import QuorumDispatch.Lib.Json
import QuorumDispatch.Provider.Attribution

/-!
The landing of a pi send. A send is over when its content stands in the rollout of the session as
a user record, and an observer that finds it there writes its `message-seen`.
-/

namespace QuorumDispatch.Pi

open Lib DeliveryEvents Provider

/-! ### The rollout -/

/-- The lines of the session file. A line that is not JSON has no value. -/
abbrev Rollout := List (Option Json)

def contentText : Json → List Char
  | .arr blocks => blocks.flatMap fun block =>
      if block.strField "type" = some "text" then ((block.strField "text").getD "").toList else []
  | _ => []

def userText? (line : Option Json) : Option (List Char) := do
  let v ← line
  if v.strField "type" ≠ some "message" then none
  let msg ← v.get "message"
  if msg.strField "role" ≠ some "user" then none
  let content ← msg.get "content"
  if (contentText content).isEmpty then none
  return contentText content

/-- A user record with this text, bare or in the sender envelope. -/
def carries (message : List Char) (line : Option Json) : Bool :=
  (userText? line).any fun text => text == message || innerBody text == some message

variable (sha256Hex : Bytes → String)

def rolloutLanded (rollout : Rollout) (contentSha256 : String) : Bool :=
  rollout.any fun line => (userText? line).any fun text =>
    sha256Hex (encodeUtf8 text) == contentSha256 ||
      (innerBody text).any fun body => sha256Hex (encodeUtf8 body) == contentSha256

def pendingLandedSends (log : List Payload) (rollout : Rollout) : List (String × String) :=
  log.filterMap fun
    | .sendInitiated fields =>
        if fields.sendPath ≠ "pi" then none
        else if log.any (isTerminalFor fields.sendId) then none
        else if rolloutLanded sha256Hex rollout fields.contentSha256 then
          some (fields.sendId, fields.contentSha256)
        else none
    | _ => none

theorem not_terminal_of_mem_pendingLandedSends {log : List Payload} {rollout : Rollout}
    {id sha : String} (h : (id, sha) ∈ pendingLandedSends sha256Hex log rollout) :
    log.any (isTerminalFor id) = false := by
  obtain ⟨payload, -, hpayload⟩ := List.mem_filterMap.mp h
  split at hpayload
  · split_ifs at hpayload with _ hterminal
    cases hpayload
    exact Bool.eq_false_iff.mpr hterminal
  · cases hpayload

/-! ### The processes -/

inductive Query where
  | inject (message sender : List Char)
  /-- Whether a rollout is recorded for the session, and is there. -/
  | rolloutExists
  | readRollout
  | readLog
  | nowMs
  | sleep (ms : Nat)
  | emit (payload : Payload)

/-- The resident answers with the turn id, and a log that cannot be read is empty. -/
@[reducible] def Answer : Query → Type
  | .inject .. => Option String
  | .rolloutExists => Bool
  | .readRollout => Option Rollout
  | .readLog => List Payload
  | .nowMs => Int
  | .sleep _ | .emit _ => Unit

abbrev PiM := Dialog Query Answer

abbrev History := List (Exchange Query Answer)

abbrev ask (q : Query) : PiM (Answer q) := Dialog.query q

def emitAll : List Payload → PiM Unit
  | [] => pure ()
  | payload :: rest => do
      ask (.emit payload)
      emitAll rest

def landingPollMs : Nat := 100

def landingWindowMs : Nat := 2000

/-- `send_pi` up to its landing check. -/
def sendPi (home : Option String) (message sender : List Char) : PiM Unit := do
  let turnId : Option String ← ask (.inject message sender)
  match turnId with
  | none => return ()
  | some turnId => emitAll (emitDaemonSendEvents sha256Hex home message turnId "pi")

def messagesSeen (landed : List (String × String)) : List Payload :=
  landed.map fun (sendId, contentSha256) => .messageSeen sendId contentSha256

/-- What an observer finds to write. Without a `HOME` there is no log to write to. -/
def observed (home : Option String) (log : List Payload) (rollout : Rollout) :
    List (String × String) :=
  if (home.filter (!·.isEmpty)).isNone then [] else pendingLandedSends sha256Hex log rollout

def observeLandedSends (home : Option String) : PiM Nat := do
  let there : Bool ← ask .rolloutExists
  if there = false then return 0
  let rollout : Option Rollout ← ask .readRollout
  match rollout with
  | none => return 0
  | some rollout => do
      let log : List Payload ← ask .readLog
      emitAll (messagesSeen (observed sha256Hex home log rollout))
      return (observed sha256Hex home log rollout).length

/-- The loop of `confirm_landing`. It ends when its time is over; `polls` bounds how often it
looks before that. -/
def confirmPoll (home : Option String) (contentSha256 : String) (deadline : Int) :
    Nat → PiM Bool
  | 0 => pure false
  | polls + 1 => do
      let rollout : Option Rollout ← ask .readRollout
      if rolloutLanded sha256Hex (rollout.getD []) contentSha256 then
        let _ ← observeLandedSends sha256Hex home
        return true
      let now : Int ← ask .nowMs
      if deadline ≤ now then return false
      ask (.sleep landingPollMs)
      confirmPoll home contentSha256 deadline polls

def confirmLanding (home : Option String) (message : List Char) (window polls : Nat) :
    PiM Bool := do
  let there : Bool ← ask .rolloutExists
  if there = false then return false
  let now : Int ← ask .nowMs
  confirmPoll sha256Hex home (sha256Hex (encodeUtf8 message)) (now + window) polls

inductive Process where
  | send (home : Option String) (message sender : List Char)
  | observe (home : Option String)
  | confirm (home : Option String) (message : List Char) (window polls : Nat)

def Process.home : Process → Option String
  | send home .. | observe home | confirm home .. => home

def Process.run : Process → PiM Unit
  | send home message sender => sendPi sha256Hex home message sender
  | observe home => do
      let _ ← observeLandedSends sha256Hex home
      return ()
  | confirm home message window polls => do
      let _ ← confirmLanding sha256Hex home message window polls
      return ()

/-! ### What a process has still to write -/

def isSeen : Payload → Bool
  | .messageSeen .. => true
  | _ => false

/-- The last look at the rollout, and the sends that were found to have landed and are still to
be written. -/
structure Progress where
  rollout : Option Rollout := none
  todo : List (String × String) := []

def Progress.step (home : Option String) (s : Progress) : Exchange Query Answer → Progress
  | ⟨.readRollout, rollout⟩ => { s with rollout := rollout }
  | ⟨.readLog, log⟩ =>
      { s with todo := (s.rollout.map fun rollout => observed sha256Hex home log rollout).getD [] }
  | ⟨.emit _, _⟩ => { s with todo := s.todo.tail }
  | _ => s

def progress (process : Process) (h : History) : Progress :=
  h.foldl (Progress.step sha256Hex process.home) {}

/-- A `message-seen` is written for the next send that was found. -/
def Permitted (process : Process) (h : History) : Query → Prop
  | .emit payload => isSeen payload = true →
      ∃ id sha, (progress sha256Hex process h).todo.head? = some (id, sha) ∧
        payload = .messageSeen id sha
  | _ => True

section Contract

open Lib.Dialog hiding pure bind ask

variable {sha256Hex} {process : Process} {h : History}

@[simp] theorem progress_snoc {e : Exchange Query Answer} :
    progress sha256Hex process (h ++ [e]) =
      (progress sha256Hex process h).step sha256Hex process.home e := by
  rw [progress, List.foldl_append]
  rfl

theorem ensures_emitAll_of_not_seen {payloads : List Payload}
    (hseen : ∀ payload ∈ payloads, isSeen payload = false) :
    Ensures (Permitted sha256Hex process) h (emitAll payloads) fun _ _ => True := by
  induction payloads generalizing h with
  | nil => trivial
  | cons payload rest ih =>
      refine ⟨fun htrue => ?_, fun _ => ih fun p hp => hseen p (List.mem_cons_of_mem _ hp)⟩
      rw [hseen payload List.mem_cons_self] at htrue
      cases htrue

theorem ensures_emitAll_messagesSeen {landed : List (String × String)}
    (htodo : (progress sha256Hex process h).todo = landed) :
    Ensures (Permitted sha256Hex process) h (emitAll (messagesSeen landed)) fun _ _ => True := by
  induction landed generalizing h with
  | nil => trivial
  | cons entry rest ih =>
      refine ⟨fun _ => ⟨entry.1, entry.2, by rw [htodo]; rfl, rfl⟩, fun _ => ih ?_⟩
      rw [progress_snoc]
      change (progress sha256Hex process h).todo.tail = rest
      rw [htodo]
      rfl

theorem ensures_observeLandedSends :
    Ensures (Permitted sha256Hex process) h (observeLandedSends sha256Hex process.home)
      fun _ _ => True := by
  refine .ask trivial fun there => ?_
  cases there with
  | false => trivial
  | true =>
      refine .ask trivial fun rollout => ?_
      cases rollout with
      | none => trivial
      | some rollout =>
          refine .ask trivial fun log => Ensures.bind (ensures_emitAll_messagesSeen ?_) ?_
          · rw [progress_snoc, progress_snoc]
            rfl
          · exact fun _ _ _ _ => trivial

theorem ensures_confirmPoll (contentSha256 : String) (deadline : Int) (polls : Nat) :
    Ensures (Permitted sha256Hex process) h
      (confirmPoll sha256Hex process.home contentSha256 deadline polls) fun _ _ => True := by
  induction polls generalizing h with
  | zero => trivial
  | succ polls ih =>
      refine .ask trivial fun rollout => ?_
      cases hlanded : rolloutLanded sha256Hex (Option.getD rollout []) contentSha256 with
      | true =>
          simp only [hlanded, if_true]
          exact Ensures.bind ensures_observeLandedSends fun _ _ _ _ => trivial
      | false =>
          simp only [hlanded, Bool.false_eq_true, if_false]
          refine .ask trivial fun now => ?_
          by_cases hlate : deadline ≤ now
          · rw [if_pos hlate]
            trivial
          · rw [if_neg hlate]
            exact .ask trivial fun _ => ih

theorem ensures_confirmLanding (message : List Char) (window polls : Nat) :
    Ensures (Permitted sha256Hex process) h
      (confirmLanding sha256Hex process.home message window polls) fun _ _ => True := by
  refine .ask trivial fun there => ?_
  cases there with
  | false => trivial
  | true => exact .ask trivial fun _ => ensures_confirmPoll _ _ _

theorem ensures_sendPi (home : Option String) (message sender : List Char) :
    Ensures (Permitted sha256Hex process) h (sendPi sha256Hex home message sender)
      fun _ _ => True := by
  refine .ask trivial fun turnId => ?_
  cases turnId with
  | none => trivial
  | some turnId =>
      refine ensures_emitAll_of_not_seen fun payload hpayload => ?_
      unfold emitDaemonSendEvents at hpayload
      split at hpayload
      · cases hpayload
      · simp only [List.mem_cons, List.not_mem_nil, or_false] at hpayload
        rcases hpayload with rfl | rfl <;> rfl

/-- **A process writes a `message-seen` only for a send that it found to have landed**, and once
for each time it found it. -/
theorem run_ensures (process : Process) :
    Ensures (Permitted sha256Hex process) [] (process.run sha256Hex) fun _ _ => True := by
  cases process with
  | send home message sender => exact ensures_sendPi home message sender
  | observe home =>
      have hobserve : Ensures (Permitted sha256Hex (.observe home)) []
        (observeLandedSends sha256Hex home) fun _ _ => True := ensures_observeLandedSends
      exact hobserve.bind fun _ _ _ _ => trivial
  | confirm home message window polls =>
      have hconfirm : Ensures (Permitted sha256Hex (.confirm home message window polls)) []
        (confirmLanding sha256Hex home message window polls) fun _ _ => True :=
          ensures_confirmLanding message window polls
      exact hconfirm.bind fun _ _ _ _ => trivial

end Contract

end QuorumDispatch.Pi
