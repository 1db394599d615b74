import QuorumDispatch.Lib.Partial
import QuorumDispatch.Relay.State

/-!
Replies on one relay server. A call of `deliver_reply` buffers its text and, if a poll of
`/replies` is registered, opens a verify window and waits for the outcome of that poll's
write; a call that finds the window of its id open waits for it to close, but not forever.

Calls, polls and clients interleave at every release of the lock. A bounded wait may
expire at any step; the environment chooses the results of probes, writes, posts and file
reads, and the clock.
-/

namespace QuorumDispatch.Relay

open Lib

/-! ### Threads -/

inductive DeliveryOutcome where
  | longPollResolved
  | pushedBack
  | notDelivered (decision : DeliveryDecision)
deriving DecidableEq, Repr

def DeliveryOutcome.isError : DeliveryOutcome → Bool
  | .notDelivered _ => true
  | _ => false

/-- Where a call of `deliver_reply` is: before the lock is taken, in the wait for the window
of another call, after the lock span that buffers, in the wait for an ack, about to post,
about to unlink the inbox file. -/
inductive CallPhase where
  | entering
  | waiting
  | looking (waiterPresent : Bool) (inMem : Option OriginRec)
  | verifying (origin : Option OriginRec)
  | pushing (origin : SessionId)
  | clearing (outcome : DeliveryOutcome)
  | returned (outcome : DeliveryOutcome)
deriving DecidableEq, Repr

def CallPhase.inWindow : CallPhase → Bool
  | .looking waiterPresent _ => waiterPresent
  | .verifying _ => true
  | _ => false

def CallPhase.hasBuffered : CallPhase → Bool
  | .entering | .waiting => false
  | _ => true

def CallPhase.outcome : CallPhase → Option DeliveryOutcome
  | .clearing outcome | .returned outcome => some outcome
  | _ => none

structure Call where
  id : MessageId
  text : Text
deriving DecidableEq, Repr

/-- Where a `GET /replies/<id>` is: in its wait, at a liveness probe, with a text that it
has peeked after its wait, or with a text that was there when it came. -/
inductive PollPhase where
  | parked
  | probing
  | probed (alive : Bool)
  | holding (text : Text)
  | writing (text : Text)
  | reporting (text : Text) (written : Bool)
  | served (text : Text) (written : Bool)
  | answering (text : Text)
  | timedOut
  | gone
deriving DecidableEq, Repr

/-- The text that a poll peeked after its wait and has not reported on. -/
def PollPhase.heldText : PollPhase → Option Text
  | .holding text | .writing text | .reporting text _ => some text
  | _ => none

/-- The text that was written without error to a connection that the probe before had
found open. -/
def PollPhase.writtenText : PollPhase → Option Text
  | .reporting text written | .served text written => if written then some text else none
  | _ => none

/-- A `POST` that succeeded. -/
structure Post where
  call : Nat
  dest : SessionId
  text : Text
deriving DecidableEq, Repr

/-- Calls and polls are numbered in the order in which they came. `closed` says that the
close of the client of a poll has arrived; `buffered` has the calls in the order in which
they wrote the buffer. -/
structure Server where
  own : SessionId
  relay : RelayState
  calls : List Call := []
  callPhase : Nat → CallPhase := fun _ => .entering
  polls : List MessageId := []
  pollPhase : Nat → PollPhase := fun _ => .parked
  closed : Nat → Bool := fun _ => false
  posts : List Post := []
  buffered : List Nat := []

namespace Server

def boot (own : SessionId) (seed : Nat) : Server := { own, relay := .withSeqSeed seed }

def setCall (s : Server) (k : Nat) (phase : CallPhase) : Server :=
  { s with callPhase := Function.update s.callPhase k phase }

def setPoll (s : Server) (p : Nat) (phase : PollPhase) : Server :=
  { s with pollPhase := Function.update s.pollPhase p phase }

def setRelay (s : Server) (relay : RelayState) : Server := { s with relay }

/-! ### Calls -/

/-- The lock span of a call after its wait: the buffer is written, the inputs of the
decision are read, and a waiter opens the window. -/
def enterSpan (s : Server) (k : Nat) (c : Call) (now : Nat) : Server :=
  let relay := s.relay.bufferReply c.id c.text (now + resolvedTtl)
  let waiterPresent := relay.hasWaiter c.id
  let relay' := if waiterPresent then relay.markVerify c.id else relay
  { s with relay := relay', buffered := s.buffered ++ [k] }.setCall k
    (.looking waiterPresent (relay.originFor c.id))

def act (origin : Option OriginRec) : DeliveryDecision → CallPhase
  | .resolveWaiter => .verifying origin
  | .pushBack dest => .pushing dest
  | decision => .clearing (.notDelivered decision)

/-- The decision after a window that ended without a written text. -/
def redecide (s : Server) (origin : Option OriginRec) : CallPhase :=
  act origin (decideDelivery false origin s.own)

def enter? (s : Server) (k now : Nat) : Option Server := do
  let c ← s.calls[k]?
  guard (s.callPhase k = .entering)
  some (if s.relay.verifyOpen c.id then s.setCall k .waiting else s.enterSpan k c now)

def resume? (s : Server) (k now : Nat) : Option Server := do
  let c ← s.calls[k]?
  guard (s.callPhase k = .waiting ∧ s.relay.verifyOpen c.id = false)
  some (s.enterSpan k c now)

def expire? (s : Server) (k now : Nat) : Option Server := do
  let c ← s.calls[k]?
  guard (s.callPhase k = .waiting)
  some (s.enterSpan k c now)

def lookup? (s : Server) (k : Nat) (data : Option InboxRecord) : Option Server :=
  match s.callPhase k with
  | .looking waiterPresent inMem =>
      let origin := inMem.or (originFromInbox data)
      some (s.setCall k (act origin (decideDelivery waiterPresent origin s.own)))
  | _ => none

def takeAck? (s : Server) (k : Nat) : Option Server := do
  let c ← s.calls[k]?
  match s.callPhase k, s.relay.takeAck c.id with
  | .verifying origin, (some written, relay) =>
      let relay := relay.unmarkVerify c.id
      if written then some ((s.setRelay relay).setCall k (.clearing .longPollResolved))
      else some ((s.setRelay (relay.removeWaiter c.id)).setCall k (s.redecide origin))
  | _, _ => none

def ackExpire? (s : Server) (k : Nat) : Option Server := do
  let c ← s.calls[k]?
  match s.callPhase k, s.relay.takeAck c.id with
  | .verifying origin, (none, relay) =>
      some ((s.setRelay ((relay.unmarkVerify c.id).removeWaiter c.id)).setCall k
        (s.redecide origin))
  | _, _ => none

/-- `push_back`, whose post succeeds or not. -/
def push? (s : Server) (k : Nat) (ok : Bool) : Option Server := do
  let c ← s.calls[k]?
  match s.callPhase k with
  | .pushing dest =>
      if ok then
        let post := { call := k, dest, text := pushedText c.id c.text }
        some ({ s with posts := s.posts ++ [post] }.setCall k (.clearing .pushedBack))
      else some (s.setCall k (.clearing (.notDelivered (.pushBack dest))))
  | _ => none

def finish? (s : Server) (k : Nat) : Option Server :=
  match s.callPhase k with
  | .clearing outcome => some (s.setCall k (.returned outcome))
  | _ => none

/-! ### Polls -/

/-- A poll comes. `drained` says that the budget of its wait is used up. -/
def get (s : Server) (id : MessageId) (drained : Bool) (now : Nat) : Server :=
  let p := s.polls.length
  let s' := { s with polls := s.polls ++ [id] }
  match s.relay.peekResolved id now with
  | (some text, relay) => (s'.setRelay relay).setPoll p (.answering text)
  | (none, relay) =>
      let relay := relay.registerWaiter id
      if drained then (s'.setRelay (relay.removeWaiter id)).setPoll p .timedOut
      else (s'.setRelay relay).setPoll p .parked

/-- A poll wakes: after a tick, a notification or for no reason. -/
def wake? (s : Server) (p now : Nat) : Option Server := do
  let id ← s.polls[p]?
  guard (s.pollPhase p = .parked)
  match s.relay.peekResolved id now with
  | (some text, relay) => some ((s.setRelay (relay.removeWaiter id)).setPoll p (.holding text))
  | (none, relay) => some ((s.setRelay relay).setPoll p .probing)

/-- `client_alive`: `answers` is false if the probe fails on an open connection. -/
def clientAlive (s : Server) (p : Nat) (answers : Bool) : Bool := answers && !s.closed p

def probe? (s : Server) (p : Nat) (answers : Bool) : Option Server :=
  match s.pollPhase p with
  | .probing => some (s.setPoll p (.probed (s.clientAlive p answers)))
  | .holding text =>
      some (s.setPoll p
        (if s.clientAlive p answers then .writing text else .reporting text false))
  | _ => none

def recheck? (s : Server) (p : Nat) (drained : Bool) (now : Nat) : Option Server := do
  let id ← s.polls[p]?
  match s.pollPhase p, s.relay.peekResolved id now with
  | .probed _, (some text, relay) =>
      some ((s.setRelay (relay.removeWaiter id)).setPoll p (.holding text))
  | .probed true, (none, relay) =>
      if drained then some ((s.setRelay (relay.removeWaiter id)).setPoll p .timedOut)
      else some ((s.setRelay relay).setPoll p .parked)
  | .probed false, (none, relay) =>
      some ((s.setRelay ((relay.removeWaiter id).offerAck id false)).setPoll p .gone)
  | _, _ => none

def write? (s : Server) (p : Nat) (ok : Bool) : Option Server :=
  match s.pollPhase p with
  | .writing text => some (s.setPoll p (.reporting text ok))
  | _ => none

def report? (s : Server) (p : Nat) : Option Server := do
  let id ← s.polls[p]?
  match s.pollPhase p with
  | .reporting text written =>
      some ((s.setRelay (s.relay.offerAck id written)).setPoll p (.served text written))
  | _ => none

/-! ### Runs -/

/-- `hangUp` is the arrival of a client's close, `receive` the lock span of
`handle_message`. -/
inductive Step where
  | deliver (c : Call)
  | enter (k now : Nat)
  | resume (k now : Nat)
  | expire (k now : Nat)
  | lookup (k : Nat) (data : Option InboxRecord)
  | takeAck (k : Nat)
  | ackExpire (k : Nat)
  | push (k : Nat) (ok : Bool)
  | finish (k : Nat)
  | get (id : MessageId) (drained : Bool) (now : Nat)
  | wake (p now : Nat)
  | probe (p : Nat) (answers : Bool)
  | recheck (p : Nat) (drained : Bool) (now : Nat)
  | write (p : Nat) (ok : Bool)
  | report (p : Nat)
  | hangUp (p : Nat)
  | receive (text : Text) (fromSession : SessionId) (now : Nat)
deriving DecidableEq, Repr

def receive (s : Server) (text : Text) (fromSession : SessionId) (now : Nat) : Server :=
  let (id, relay) := s.relay.mintMessageId now
  s.setRelay (relay.recordOrigin id fromSession (isReplyText text))

def step? (s : Server) : Step → Option Server
  | .deliver c => some ({ s with calls := s.calls ++ [c] }.setCall s.calls.length .entering)
  | .enter k now => s.enter? k now
  | .resume k now => s.resume? k now
  | .expire k now => s.expire? k now
  | .lookup k data => s.lookup? k data
  | .takeAck k => s.takeAck? k
  | .ackExpire k => s.ackExpire? k
  | .push k ok => s.push? k ok
  | .finish k => s.finish? k
  | .get id drained now => some (s.get id drained now)
  | .wake p now => s.wake? p now
  | .probe p answers => s.probe? p answers
  | .recheck p drained now => s.recheck? p drained now
  | .write p ok => s.write? p ok
  | .report p => s.report? p
  | .hangUp p => some { s with closed := Function.update s.closed p true }
  | .receive text fromSession now => some (s.receive text fromSession now)

def run? (s : Server) (steps : List Step) : Option Server := steps.foldlM step? s

/-! ### Conditions -/

def fresh (s : Server) (id : MessageId) (now : Nat) : Bool :=
  (s.relay.resolved id).all fun entry => now < entry.deadline

def withinTtl (s : Server) : Step → Bool
  | .get id _ now => s.fresh id now
  | .wake p now | .recheck p _ now => (s.polls[p]?).all fun id => s.fresh id now
  | _ => true

def serialized (s : Server) : Step → Bool
  | .expire k _ => (s.calls[k]?).all fun c => !s.relay.verifyOpen c.id
  | _ => true

def withinTtlSerialized (s : Server) (step : Step) : Bool := s.withinTtl step && s.serialized step

def Written (s : Server) (id : MessageId) (text : Text) : Prop :=
  ∃ p, s.polls[p]? = some id ∧ (s.pollPhase p).writtenText = some text

def Posted (s : Server) (k : Nat) (c : Call) : Prop :=
  ∃ dest, { call := k, dest, text := pushedText c.id c.text } ∈ s.posts

/-- The text is that of the call or of one that wrote the buffer for the same id after it. -/
def FromOrAfter (s : Server) (k : Nat) (c : Call) (text : Text) : Prop :=
  ∃ (i j k' : Nat) (c' : Call), s.buffered[i]? = some k ∧ i ≤ j ∧ s.buffered[j]? = some k' ∧
    s.calls[k']? = some c' ∧ c'.id = c.id ∧ c'.text = text

variable {s s' : Server}

/-! ### Reading updated states -/

theorem setCall_callPhase (s : Server) (k : Nat) (phase : CallPhase) (j : Nat) :
    (s.setCall k phase).callPhase j = if j = k then phase else s.callPhase j :=
  Function.update_apply ..

theorem setPoll_pollPhase (s : Server) (p : Nat) (phase : PollPhase) (q : Nat) :
    (s.setPoll p phase).pollPhase q = if q = p then phase else s.pollPhase q :=
  Function.update_apply ..

theorem enterSpan_verifyOpen (s : Server) (k : Nat) (c : Call) (now : Nat) (id : MessageId) :
    (s.enterSpan k c now).relay.verifyOpen id =
      if id = c.id ∧ s.relay.hasWaiter c.id = true then true else s.relay.verifyOpen id := by
  have hwaiter : (s.relay.bufferReply c.id c.text (now + resolvedTtl)).hasWaiter c.id =
      s.relay.hasWaiter c.id := rfl
  unfold enterSpan
  dsimp only [setCall]
  rw [hwaiter]
  cases s.relay.hasWaiter c.id with
  | false => simp [RelayState.verifyOpen, RelayState.bufferReply]
  | true =>
      rw [if_pos rfl, RelayState.markVerify_verifyOpen]
      simp [RelayState.verifyOpen, RelayState.bufferReply]

theorem enterSpan_resolved (s : Server) (k : Nat) (c : Call) (now : Nat) (id : MessageId) :
    (s.enterSpan k c now).relay.resolved id =
      if id = c.id then some { text := c.text, deadline := now + resolvedTtl }
      else s.relay.resolved id := by
  rw [← RelayState.bufferReply_resolved]
  unfold enterSpan
  dsimp only [setCall]
  split_ifs <;> rfl

theorem enterSpan_hasWaiter (s : Server) (k : Nat) (c : Call) (now : Nat) (id : MessageId) :
    (s.enterSpan k c now).relay.hasWaiter id = s.relay.hasWaiter id := by
  unfold enterSpan
  dsimp only [setCall]
  split_ifs <;> rfl

theorem enterSpan_acks (s : Server) (k : Nat) (c : Call) (now : Nat) (id : MessageId) :
    (s.enterSpan k c now).relay.acks id = s.relay.acks id := by
  unfold enterSpan
  dsimp only [setCall]
  split_ifs <;> rfl

theorem enterSpan_callPhase (s : Server) {k j : Nat} (hjk : j ≠ k) (c : Call) (now : Nat) :
    (s.enterSpan k c now).callPhase j = s.callPhase j := by
  unfold enterSpan
  rw [setCall_callPhase, if_neg hjk]

theorem peekResolved_of_fresh {id : MessageId} {now : Nat} (hfresh : s.fresh id now = true) :
    s.relay.peekResolved id now = ((s.relay.resolved id).map ResolvedEntry.text, s.relay) := by
  unfold RelayState.peekResolved
  cases hentry : s.relay.resolved id with
  | none => rfl
  | some entry =>
      have hnow : now < entry.deadline := by simpa [fresh, hentry] using hfresh
      dsimp only
      rw [if_neg (by omega)]
      rfl

theorem get_of_resolved {id : MessageId} {now : Nat} (hfresh : s.fresh id now = true)
    {entry : ResolvedEntry} (hentry : s.relay.resolved id = some entry) (drained : Bool) :
    (s.get id drained now).pollPhase s.polls.length = .answering entry.text := by
  unfold Server.get
  dsimp only
  rw [peekResolved_of_fresh hfresh, hentry]
  exact (setPoll_pollPhase ..).trans (if_pos rfl)

theorem receive_eq (s : Server) (text : Text) (fromSession : SessionId) (now : Nat) :
    ∃ origins originsOrder, s.receive text fromSession now =
      s.setRelay { s.relay with origins, originsOrder, seq := s.relay.seq + 1 } := by
  unfold receive RelayState.mintMessageId
  dsimp only
  obtain ⟨origins, originsOrder, heq⟩ := RelayState.recordOrigin_eq
    { s.relay with seq := s.relay.seq + 1 } (RelayState.messageId now (s.relay.seq + 1))
    fromSession (isReplyText text)
  exact ⟨origins, originsOrder, by rw [heq]⟩

theorem Written.setPoll {p : Nat} {phase : PollPhase}
    (hwritten : ∀ text, (s.pollPhase p).writtenText = some text → phase.writtenText = some text)
    {id : MessageId} {text : Text} (h : s.Written id text) : (s.setPoll p phase).Written id text := by
  obtain ⟨q, hq, htext⟩ := h
  refine ⟨q, hq, ?_⟩
  rw [setPoll_pollPhase]
  split_ifs with hqp
  · exact hwritten text (hqp ▸ htext)
  · exact htext

theorem Written.addPoll {id id' : MessageId} {phase : PollPhase} {text : Text}
    (h : s.Written id text) :
    ({ s with polls := s.polls ++ [id'] }.setPoll s.polls.length phase).Written id text := by
  obtain ⟨q, hq, htext⟩ := h
  have hlt : q < s.polls.length := (List.getElem?_eq_some_iff.mp hq).1
  refine ⟨q, (List.getElem?_append_left hlt).trans hq, ?_⟩
  rw [setPoll_pollPhase, if_neg (by omega)]
  exact htext

theorem FromOrAfter.mono {k : Nat} {c : Call} {text : Text} (h : s.FromOrAfter k c text)
    {calls : List Call} {buffered : List Nat} (hcalls : s'.calls = s.calls ++ calls)
    (hbuffered : s'.buffered = s.buffered ++ buffered) : s'.FromOrAfter k c text := by
  obtain ⟨i, j, k', c', hi, hij, hj, hc', hid, htext⟩ := h
  refine ⟨i, j, k', c', ?_, hij, ?_, ?_, hid, htext⟩
  · rw [hbuffered]
    exact getElem?_append_of_eq_some hi buffered
  · rw [hbuffered]
    exact getElem?_append_of_eq_some hj buffered
  · rw [hcalls]
    exact getElem?_append_of_eq_some hc' calls

end Server

end QuorumDispatch.Relay
