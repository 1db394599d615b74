import QuorumDispatch.Acp.Relay

/-!
A wait for a session to become idle (`await_idle_acp`), as a client of the resident. The
resident serves one connection at a time, so that no other client comes between the
connection of a run and its end.
-/

namespace QuorumDispatch.Acp

open Lib

/-! ### The completion of a turn -/

inductive TerminalReason where
  | completed
  | refusal
  | maxTokens
  | cancelled
  | failed
  | crashed
  | transportLost
deriving DecidableEq, Repr

def StopReason.toTerminalReason : StopReason → TerminalReason
  | .endTurn => .completed
  | .maxTokens | .maxTurnRequests => .maxTokens
  | .refusal => .refusal
  | .cancelled => .cancelled

inductive TurnCompletionProbe where
  | visible
  | pending
  | degraded (why : String)
deriving DecidableEq, Repr

namespace AcpTurnObservation

def terminalReason : AcpTurnObservation → Option TerminalReason
  | .terminal stop => some stop.toTerminalReason
  | .failed _ => some .failed
  | .transportLost _ => some .transportLost
  | .pending => none

def pollCompletion : AcpTurnObservation → TurnCompletionProbe
  | .terminal _ | .failed _ => .visible
  | .pending => .pending
  | .transportLost why => .degraded why

end AcpTurnObservation

def acpWaitObservation : Except AcpError (Option AcpEvent) → AcpTurnObservation
  | .ok (some (.terminal _ _ stop)) => .terminal stop
  | .ok (some (.terminalError _ _ message)) => .failed message
  | .ok (some (.update ..)) | .ok none => .pending
  | .error _ => .transportLost "channel closed"

inductive TurnState where
  | idleAtEntry
  | wentIdle
  | budgetElapsed
  | channelClosed
  | turnFailed (detail : String)
deriving DecidableEq, Repr

inductive WaitPhase where
  | entry
  | polling
  | returned (state : TurnState)
deriving DecidableEq, Repr

/-- `status_in_flight`, from the answer to the probe. -/
def statusInFlight : Except AcpError Json → Except AcpError Bool
  | .ok result =>
      .ok (match result.get "in_flight" with
        | some (.bool b) => b
        | _ => false)
  | .error e => .error e

def entryGate (answer : Except AcpError Json) : WaitPhase :=
  match statusInFlight answer with
  | .ok false => .returned .idleAtEntry
  | _ => .polling

/-- One turn of the loop, on what `next_update` returned. -/
def pollOnce (raw : Except AcpError (Option AcpEvent)) : WaitPhase :=
  let obs := acpWaitObservation raw
  match obs.pollCompletion with
  | .visible =>
      if obs.terminalReason = some .failed then
        .returned (.turnFailed (match obs with | .failed message => message | _ => ""))
      else .returned .wentIdle
  | .pending => .polling
  | .degraded _ => .returned .channelClosed

/-- A run of a wait, and the turns that were accepted before it connected. -/
structure Wait where
  before : List String
  phase : WaitPhase := .entry
deriving DecidableEq, Repr

inductive Exchange where
  | answered
  | unanswered
  | unserved
deriving DecidableEq, Repr

structure Watched where
  driven : Driven
  bus : List BusEvent := []
  wait : Option Wait := none

namespace Watched

inductive Step where
  | post (e : BusEvent)
  | hangUp
  | client (id : Nat) (req : Request)
  | connect
  | poll (id timeoutMs : Nat) (exchange : Exchange)
  | budget
  | disconnect

def receives (w : Watched) : Received :=
  match w.bus with
  | e :: _ => .event e
  | [] => if w.driven.host.isOpen then .timeout else .disconnected

def dispatch? (bridge : Handshake) (w : Watched) (req : Json) : Option (Except AcpError Json × Watched) := do
  let (reply, driven) ← dispatchRequest? bridge w.receives w.driven req
  some (reply, { w with
    driven
    bus := if req.strField "m" = some "next_update" then w.bus.tail else w.bus })

/-- A request of the run, and what the client reads as the answer to it. -/
def exchange? (bridge : Handshake) (w : Watched) (id : Nat) (req : Request) (exchange : Exchange) :
    Option (Except AcpError Json × Watched) :=
  match exchange with
  | .unserved => some (.error (.transport "request timeout"), w)
  | .unanswered => do
      let (_, w) ← w.dispatch? bridge (req.frame id)
      some (.error (.transport "request timeout"), w)
  | .answered => do
      let (reply, w) ← w.dispatch? bridge (req.frame id)
      some (← readFrame? id (replyFrame (req.frame id) reply), w)

def step? (bridge : Handshake) (w : Watched) : Step → Option Watched
  | .post e => some { w with bus := w.bus ++ [e] }
  | .hangUp => some { w with driven := { w.driven with host := { w.driven.host with isOpen := false } } }
  | .client id req => do
      guard w.wait.isNone
      (w.dispatch? bridge (req.frame id)).map Prod.snd
  | .connect => do
      guard w.wait.isNone
      some { w with wait := some { before := (accepted w.driven.log).map Prod.fst } }
  | .poll id timeoutMs exchange => do
      let wait ← w.wait
      match wait.phase with
      | .entry => do
          let (answer, w) ← w.exchange? bridge id .status exchange
          some { w with wait := some { wait with phase := entryGate answer } }
      | .polling => do
          let (answer, w) ← w.exchange? bridge id (.nextUpdate timeoutMs) exchange
          some { w with wait := some { wait with phase := pollOnce (answer.bind decodeUpdate) } }
      | .returned _ => none
  | .budget => do
      let wait ← w.wait
      guard (wait.phase = .polling)
      some { w with wait := some { wait with phase := .returned .budgetElapsed } }
  | .disconnect => some { w with wait := none }

def run? (bridge : Handshake) (w : Watched) (steps : List Step) : Option Watched :=
  steps.foldlM (step? bridge) w

end Watched

/-! ### What a host still owes -/

section Owes

variable {session : String} {h : AcpHost} {q : OutboundQueue} {s s' : Driven}

theorem accepted_record (s : Driven) (entry : Entry) (host : AcpHost) :
    accepted (s.record entry host).log = accepted s.log ++ entry.accepted?.toList := by
  have hsent : ∀ commands : List Command, accepted (commands.map .sent) = [] := fun commands =>
    List.filterMap_eq_nil_iff.mpr fun entry hentry => by
      obtain ⟨c, -, rfl⟩ := List.mem_map.mp hentry
      rfl
  rw [Driven.record, ← List.singleton_append, accepted, List.filterMap_append, List.filterMap_append]
  rw [show List.filterMap Entry.accepted? (List.map _ _) = [] from hsent _, List.append_nil]
  cases hentry : entry.accepted? <;> simp [accepted, hentry]

theorem AcpHost.releaseNext_queue (hsession : h.session = some session) (hqueue : h.queue = some q) :
    h.releaseNext.2.queue = some q.tryRelease.2 ∧ h.releaseNext.2.session = some session := by
  obtain ⟨capacity, session', queue, updatesSeen, lastObs, transcript, isOpen, sent⟩ := h
  cases hsession
  cases hqueue
  rcases hrelease : q.tryRelease with ⟨item, q'⟩
  cases item with
  | some item => cases isOpen <;> simp [AcpHost.releaseNext, AcpHost.send, hrelease]
  | none =>
      have hsame : q' = q := by
        obtain ⟨session, capacity, nextSeq, inFlight, pending⟩ := q
        cases inFlight <;> cases pending <;> simp_all [OutboundQueue.tryRelease]
      simp [AcpHost.releaseNext, hrelease, hsame]

def Ended (log : List Entry) (turn : String) : Prop := ∃ e, .consumed e ∈ log ∧ e.terminalTurn = some turn

/-- An accepted turn was ended, or is held by the queue; and nothing waits behind no turn. -/
structure Owes (session : String) (s : Driven) (q : OutboundQueue) : Prop where
  queue : s.host.queue = some q
  session : s.host.session = some session
  idle : q.inFlight = none → q.pending = []
  served : ∀ turn ∈ (accepted s.log).map Prod.fst, Ended s.log turn ∨ q.Holds turn

/-- A queue that `nextUpdate` leaves: the terminal of the turn in flight ends it. -/
def LeftBy (received : Received) (q q' : OutboundQueue) : Prop :=
  ∀ turn, q'.Holds turn ↔
    (q.inFlight = some turn ∧ ∀ e, received = .event e → e.terminalTurn ≠ some turn) ∨ q.Waits turn

namespace Owes

theorem established (session : String) (capacity : Nat) :
    Owes session (.established session capacity) (.new session capacity) :=
  ⟨rfl, rfl, fun _ => rfl, by rintro turn ⟨⟩⟩

/-- A call that leaves a turn neither held nor ended ends it now. -/
theorem record (h : Owes session s q) {entry : Entry} {host : AcpHost} {q' : OutboundQueue}
    (hqueue : host.queue = some q') (hsession : host.session = some session)
    (hidle : q'.inFlight = none → q'.pending = [])
    (hheld : ∀ turn, q.Holds turn → q'.Holds turn ∨ ∃ e, entry = .consumed e ∧ e.terminalTurn = some turn)
    (hnew : ∀ p ∈ entry.accepted?, q'.Holds p.1) : Owes session (s.record entry host) q' := by
  refine ⟨hqueue, hsession, hidle, fun turn hturn => ?_⟩
  have hended : ∀ e, e.terminalTurn = some turn → .consumed e ∈ s.log ∨ entry = .consumed e →
      Ended (s.record entry host).log turn := by
    intro e he hmem
    refine ⟨e, ?_, he⟩
    rcases hmem with hmem | rfl
    · exact List.mem_append_left _ hmem
    · exact List.mem_append_right _ List.mem_cons_self
  rw [accepted_record, List.map_append, List.mem_append] at hturn
  rcases hturn with hturn | hturn
  · rcases h.served turn hturn with ⟨e, hmem, he⟩ | hq
    · exact .inl (hended e he (.inl hmem))
    · rcases hheld turn hq with hq' | ⟨e, hentry, he⟩
      · exact .inr hq'
      · exact .inl (hended e he (.inr hentry))
  · obtain ⟨p, hp, rfl⟩ := List.mem_map.mp hturn
    exact .inr (hnew p (Option.mem_toList.mp hp))

theorem idleEntry (h : Owes session s q) {entry : Entry} {host : AcpHost}
    (hqueue : host.queue = s.host.queue) (hsession : host.session = s.host.session)
    (hentry : entry.accepted? = none) : Owes session (s.record entry host) q :=
  h.record (hqueue.trans h.queue) (hsession.trans h.session) h.idle (fun _ => .inl)
    fun p hp => by simp [hentry] at hp

theorem release (h : Owes session s q) {entry : Entry} {host : AcpHost} {q' : OutboundQueue}
    (hqueue : host.queue = some q') (hsession : host.session = some session)
    (hheld : ∀ turn, q.Holds turn → q'.Holds turn ∨ ∃ e, entry = .consumed e ∧ e.terminalTurn = some turn)
    (hnew : ∀ p ∈ entry.accepted?, q'.Holds p.1) :
    Owes session (s.record entry host.releaseNext.2) q'.tryRelease.2 := by
  obtain ⟨hqueue', hsession'⟩ := AcpHost.releaseNext_queue hsession hqueue
  refine h.record hqueue' hsession' OutboundQueue.pending_tryRelease (fun turn hq => ?_) fun p hp => ?_
  · rw [OutboundQueue.holds_tryRelease]
    exact hheld turn hq
  · rw [OutboundQueue.holds_tryRelease]
    exact hnew p hp

theorem finishTurn (h : Owes session s q) {e : BusEvent} {turn : String}
    (hturn : e.terminalTurn = some turn) (obs : AcpTurnObservation) (event : AcpEvent) :
    ∃ q', Owes session (s.record (.consumed e) (s.host.finishTurn turn obs event).2) q' ∧
      LeftBy (.event e) q q' := by
  refine ⟨(q.complete turn).2.tryRelease.2, ?_, fun turn' => ?_⟩
  · have hhost : (s.host.finishTurn turn obs event).2 = ({ s.host with
        queue := s.host.queue.map fun queue => (queue.complete turn).2
        lastObs := obs } : AcpHost).releaseNext.2 := by
      unfold AcpHost.finishTurn
      split <;> simp_all
    rw [hhost]
    refine h.release (by simp [h.queue]) h.session (fun turn' hq => ?_) (by rintro p ⟨⟩)
    by_cases heq : turn = turn'
    · exact .inr ⟨e, rfl, heq ▸ hturn⟩
    · exact .inl ((OutboundQueue.holds_complete q turn turn').mpr (hq.imp_left fun hq => ⟨hq, heq⟩))
  · rw [OutboundQueue.holds_tryRelease, OutboundQueue.holds_complete]
    simp [hturn]

theorem nextUpdate (h : Owes session s q) (received : Received)
    (hstep : s.step? (.nextUpdate received) = some s') :
    ∃ q', Owes session s' q' ∧ LeftBy received q q' := by
  have hsame : (∀ e, received = .event e → e.terminalTurn = none) → LeftBy received q q := by
    intro hnone turn
    refine or_congr_left ⟨fun hq => ⟨hq, fun e he => ?_⟩, And.left⟩
    rw [hnone e he]
    simp
  cases received with
  | timeout =>
      cases hstep
      exact ⟨q, h.idleEntry rfl rfl rfl, hsame (by rintro e ⟨⟩)⟩
  | disconnected =>
      cases hstep
      exact ⟨q, h.idleEntry rfl rfl rfl, hsame (by rintro e ⟨⟩)⟩
  | event e =>
      cases hstep
      cases e with
      | update => exact ⟨q, h.idleEntry rfl rfl rfl, hsame (by rintro e ⟨⟩; rfl)⟩
      | closed => exact ⟨q, h.idleEntry rfl rfl rfl, hsame (by rintro e ⟨⟩; rfl)⟩
      | terminal => exact h.finishTurn rfl _ _
      | terminalError => exact h.finishTurn rfl _ _

theorem prompt (h : Owes session s q) {text sender : String}
    (hstep : s.step? (.prompt text sender) = some s') : ∃ q', Owes session s' q' := by
  obtain ⟨⟨result, host⟩, hprompt, hstep⟩ := Option.bind_eq_some_iff.mp hstep
  unfold AcpHost.prompt? at hprompt
  split at hprompt
  next queue _ hqueue =>
    cases h.queue.symm.trans hqueue
    obtain ⟨⟨turn, queue⟩, henqueue, hprompt⟩ := Option.bind_eq_some_iff.mp hprompt
    by_cases hroom : q.capacity ≤ q.pending.length
    · rw [OutboundQueue.enqueue?_full hroom] at henqueue
      cases henqueue
      cases hprompt
      cases hstep
      exact ⟨q, h.idleEntry rfl rfl rfl⟩
    · cases OutboundQueue.enqueue?_accepts hroom henqueue
      -- the prompt is in the queue, also if the connection does not take it any more
      have hheld : ∀ (entry : Entry) (host : AcpHost), host.queue = some { q with
            nextSeq := q.nextSeq + 1
            pending := q.pending ++ [{ turn := turnId q.session q.nextSeq, message := text, sender }] } →
          host.session = some session → (∀ p ∈ entry.accepted?, p.1 = turnId q.session q.nextSeq) →
          ∃ q', Owes session (s.record entry host.releaseNext.2) q' := by
        intro entry host hqueue hsession hentry
        refine ⟨_, h.release hqueue hsession (fun turn hq => .inl (hq.imp_right ?_)) fun p hp => ?_⟩
        · rintro ⟨item, hitem, heq⟩
          exact ⟨item, List.mem_append_left _ hitem, heq⟩
        · exact .inr ⟨_, List.mem_append_right _ (List.mem_singleton_self _), (hentry p hp).symm⟩
      dsimp only at hprompt
      split at hprompt
      next hrelease =>
        cases hprompt
        cases hstep
        have hhost := congrArg Prod.snd hrelease
        dsimp only at hhost
        rw [← hhost]
        exact hheld _ _ rfl h.session (by rintro p ⟨⟩; rfl)
      next hrelease =>
        cases hprompt
        cases hstep
        have hhost := congrArg Prod.snd hrelease
        dsimp only at hhost
        rw [← hhost]
        exact hheld _ _ rfl h.session (by rintro p ⟨⟩)
  next hnone => exact absurd h.queue (hnone _ _ h.session)

theorem cancel (h : Owes session s q) (hstep : s.step? .cancel = some s') : Owes session s' q := by
  have hqueue : s.host.cancel.2.queue = s.host.queue ∧ s.host.cancel.2.session = s.host.session := by
    unfold AcpHost.cancel AcpHost.send
    split
    next => split <;> exact ⟨rfl, rfl⟩
    next => exact ⟨rfl, rfl⟩
  unfold Driven.step? at hstep
  dsimp only at hstep
  split at hstep
  next hcancel =>
    cases hstep
    rw [hcancel] at hqueue
    exact h.idleEntry hqueue.1 hqueue.2 rfl
  next hcancel =>
    cases hstep
    rw [hcancel] at hqueue
    exact h.idleEntry hqueue.1 hqueue.2 rfl

end Owes

theorem accepted_step? {call : Call} (hstep : s.step? call = some s') :
    accepted s.log <+: accepted s'.log := by
  have hrecord : ∀ entry host, accepted s.log <+: accepted (s.record entry host).log := by
    intro entry host
    rw [accepted_record]
    exact List.prefix_append _ _
  cases call with
  | prompt text sender =>
      obtain ⟨⟨result, host⟩, -, hstep⟩ := Option.bind_eq_some_iff.mp hstep
      cases result <;> cases hstep <;> exact hrecord _ _
  | cancel =>
      unfold Driven.step? at hstep
      dsimp only at hstep
      split at hstep <;> cases hstep <;> exact hrecord _ _
  | nextUpdate received => cases received <;> cases hstep <;> exact hrecord _ _

theorem Owes.dispatchRequest? (h : Owes session s q) {bridge : Handshake} {received : Received} {id : Nat}
    {req : Request} {r : Except AcpError Json × Driven}
    (hdispatch : dispatchRequest? bridge received s (req.frame id) = some r) :
    (∃ q', Owes session r.2 q') ∧ accepted s.log <+: accepted r.2.log := by
  cases req with
  | prompt text sender =>
      obtain ⟨hstep, -⟩ := dispatchRequest?_prompt bridge received s id text sender hdispatch
      exact ⟨h.prompt hstep, accepted_step? hstep⟩
  | cancel =>
      obtain ⟨hstep, -⟩ := dispatchRequest?_cancel bridge received s id hdispatch
      exact ⟨⟨q, h.cancel hstep⟩, accepted_step? hstep⟩
  | nextUpdate timeoutMs =>
      obtain ⟨hstep, -⟩ := dispatchRequest?_nextUpdate bridge received s id timeoutMs hdispatch
      obtain ⟨q', hq', -⟩ := h.nextUpdate received hstep
      exact ⟨⟨q', hq'⟩, accepted_step? hstep⟩
  | status =>
      cases hdispatch
      exact ⟨⟨q, h⟩, List.prefix_rfl⟩

end Owes

/-! ### Runs of a wait -/

namespace Watched

variable {bridge : Handshake} {session : String} {w w' : Watched} {q : OutboundQueue}

structure Watches (session : String) (w : Watched) : Prop where
  owes : ∃ q, Owes session w.driven q
  before : ∀ wait ∈ w.wait, wait.before ⊆ (accepted w.driven.log).map Prod.fst

theorem Watches.established (session : String) (capacity : Nat) :
    Watches session { driven := .established session capacity } :=
  ⟨⟨_, .established session capacity⟩, by rintro wait ⟨⟩⟩

/-- The run of a wait goes on, or ends, after what its request did. -/
theorem Watches.phase (h : Watches session w) {wait : Wait} (hwait : w.wait = some wait) (phase : WaitPhase) :
    Watches session { w with wait := some { wait with phase } } := by
  refine ⟨h.owes, ?_⟩
  rintro wait' ⟨⟩
  exact h.before wait hwait

theorem Watches.dispatch? (h : Watches session w) {id : Nat} {req : Request} {reply : Except AcpError Json}
    (hdispatch : w.dispatch? bridge (req.frame id) = some (reply, w')) :
    Watches session w' ∧ w'.wait = w.wait := by
  obtain ⟨⟨reply', driven⟩, hreq, hdispatch⟩ := Option.bind_eq_some_iff.mp hdispatch
  cases hdispatch
  obtain ⟨q, hq⟩ := h.owes
  obtain ⟨howes, haccepted⟩ := hq.dispatchRequest? hreq
  refine ⟨⟨howes, fun wait hwait => ?_⟩, rfl⟩
  exact List.Subset.trans (h.before wait hwait) (haccepted.map Prod.fst).subset

theorem Watches.exchange? (h : Watches session w) {id : Nat} {req : Request} {exchange : Exchange}
    {answer : Except AcpError Json} (hexchange : w.exchange? bridge id req exchange = some (answer, w')) :
    Watches session w' ∧ w'.wait = w.wait := by
  cases exchange with
  | unserved =>
      cases hexchange
      exact ⟨h, rfl⟩
  | unanswered =>
      obtain ⟨⟨reply, w₁⟩, hdispatch, hexchange⟩ := Option.bind_eq_some_iff.mp hexchange
      cases hexchange
      exact h.dispatch? hdispatch
  | answered =>
      obtain ⟨⟨reply, w₁⟩, hdispatch, hexchange⟩ := Option.bind_eq_some_iff.mp hexchange
      obtain ⟨answer', -, hexchange⟩ := Option.bind_eq_some_iff.mp hexchange
      cases hexchange
      exact h.dispatch? hdispatch

theorem Watches.step? (h : Watches session w) {step : Step} (hstep : w.step? bridge step = some w') :
    Watches session w' := by
  cases step with
  | post e =>
      cases hstep
      exact ⟨h.owes, h.before⟩
  | hangUp =>
      cases hstep
      obtain ⟨q, hq⟩ := h.owes
      exact ⟨⟨q, hq.queue, hq.session, hq.idle, hq.served⟩, h.before⟩
  | client id req =>
      obtain ⟨-, hstep⟩ := guard_bind_eq_some.mp hstep
      obtain ⟨⟨reply, w₁⟩, hdispatch, rfl⟩ := Option.map_eq_some_iff.mp hstep
      exact (h.dispatch? hdispatch).1
  | connect =>
      obtain ⟨-, hstep⟩ := guard_bind_eq_some.mp hstep
      cases hstep
      refine ⟨h.owes, ?_⟩
      rintro wait ⟨⟩
      exact List.Subset.refl _
  | poll id timeoutMs exchange =>
      obtain ⟨wait, hwait, hstep⟩ := Option.bind_eq_some_iff.mp hstep
      cases hphase : wait.phase with
      | returned => simp [hphase] at hstep
      | entry =>
          rw [hphase] at hstep
          obtain ⟨⟨answer, w₁⟩, hexchange, hstep⟩ := Option.bind_eq_some_iff.mp hstep
          cases hstep
          obtain ⟨hw, hsame⟩ := h.exchange? hexchange
          exact hw.phase (hsame.trans hwait) _
      | polling =>
          rw [hphase] at hstep
          obtain ⟨⟨answer, w₁⟩, hexchange, hstep⟩ := Option.bind_eq_some_iff.mp hstep
          cases hstep
          obtain ⟨hw, hsame⟩ := h.exchange? hexchange
          exact hw.phase (hsame.trans hwait) _
  | budget =>
      obtain ⟨wait, hwait, hstep⟩ := Option.bind_eq_some_iff.mp hstep
      obtain ⟨-, hstep⟩ := guard_bind_eq_some.mp hstep
      cases hstep
      exact h.phase hwait _
  | disconnect =>
      cases hstep
      exact ⟨h.owes, by rintro wait ⟨⟩⟩

theorem Watches.run? (h : Watches session w) {steps : List Step} (hrun : w.run? bridge steps = some w') :
    Watches session w' := by
  have hloop : Ensures (w.run? bridge steps) (Watches session) :=
    .foldlM h fun _ _ _ h _ hstep => h.step? hstep
  exact hloop w' hrun

/-- The turns have got their terminals, and none of them is in flight or waits. -/
def Done (w : Watched) (before : List String) : Prop :=
  ∀ turn ∈ before, Ended w.driven.log turn ∧ ∀ q ∈ w.driven.host.queue, ¬q.Holds turn

/-- None of the turns waits, and the next event is the terminal of the one in flight. -/
def Clears (w : Watched) (before : List String) : Prop :=
  ∀ turn ∈ before, ∀ q ∈ w.driven.host.queue, ¬q.Waits turn ∧
    (q.inFlight = some turn → ∃ e ∈ w.bus.head?, e.terminalTurn = some turn)

theorem done_iff (hq : Owes session w.driven q) {before : List String}
    (hbefore : before ⊆ (accepted w.driven.log).map Prod.fst) :
    w.Done before ↔ ∀ turn ∈ before, ¬q.Holds turn := by
  constructor
  · intro hdone turn hturn
    exact (hdone turn hturn).2 q hq.queue
  · intro hnone turn hturn
    refine ⟨(hq.served turn (hbefore hturn)).resolve_right (hnone turn hturn), fun q' hq' => ?_⟩
    cases hq.queue.symm.trans hq'
    exact hnone turn hturn

theorem receives_event {e : BusEvent} : w.receives = .event e ↔ w.bus.head? = some e := by
  unfold receives
  cases w.bus with
  | nil => cases w.driven.host.isOpen <;> simp
  | cons e' rest => simp

/-- A pull of the run leaves nothing undone if and only if it clears the turns. -/
theorem done_pull_iff (hq : Owes session w.driven q) {before : List String}
    (hbefore : before ⊆ (accepted w.driven.log).map Prod.fst) {id timeoutMs : Nat}
    {reply : Except AcpError Json}
    (hdispatch : w.dispatch? bridge ((Request.nextUpdate timeoutMs).frame id) = some (reply, w')) :
    w'.Done before ↔ w.Clears before := by
  obtain ⟨⟨reply', driven⟩, hreq, hdispatch⟩ := Option.bind_eq_some_iff.mp hdispatch
  cases hdispatch
  obtain ⟨hstep, -⟩ := dispatchRequest?_nextUpdate bridge w.receives w.driven id timeoutMs hreq
  obtain ⟨q', hq', hleft⟩ := hq.nextUpdate w.receives hstep
  rw [done_iff hq' (List.Subset.trans hbefore ((accepted_step? hstep).map Prod.fst).subset)]
  refine forall₂_congr fun turn hturn => ?_
  rw [hleft turn, hq.queue]
  simp only [receives_event, not_or, Option.mem_def, Option.some.injEq, forall_eq']
  constructor
  · rintro ⟨hflight, hwaits⟩
    refine ⟨hwaits, fun hturn => ?_⟩
    by_contra hnone
    push Not at hnone
    exact hflight ⟨hturn, hnone⟩
  · rintro ⟨hwaits, hflight⟩
    refine ⟨fun ⟨hturn, hnone⟩ => ?_, hwaits⟩
    obtain ⟨e, he, hterminal⟩ := hflight hturn
    exact hnone e he hterminal

theorem done_of_entryGate (hq : Owes session w.driven q) {before : List String}
    (hbefore : before ⊆ (accepted w.driven.log).map Prod.fst) {id : Nat} {exchange : Exchange}
    {answer : Except AcpError Json} (hexchange : w.exchange? bridge id .status exchange = some (answer, w'))
    (hgate : entryGate answer = .returned .idleAtEntry) : w'.Done before := by
  cases exchange with
  | unserved =>
      cases hexchange
      cases hgate
  | unanswered =>
      cases hexchange
      cases hgate
  | answered =>
      unfold exchange? at hexchange
      obtain ⟨⟨reply, w₁⟩, hdispatch, hexchange⟩ := Option.bind_eq_some_iff.mp hexchange
      obtain ⟨answer', hread, hexchange⟩ := Option.bind_eq_some_iff.mp hexchange
      cases hexchange
      unfold dispatch? at hdispatch
      obtain ⟨⟨reply', driven⟩, hreq, hdispatch⟩ := Option.bind_eq_some_iff.mp hdispatch
      cases hdispatch
      rw [dispatchRequest?_status] at hreq
      cases hreq
      cases eq_of_readFrame? hread
      have hflight : w.driven.host.inFlight = false := by
        cases hinFlight : w.driven.host.inFlight with
        | false => rfl
        | true =>
            rw [hinFlight] at hgate
            cases hgate
      have hnone : q.inFlight = none := by
        rw [AcpHost.inFlight, hq.queue] at hflight
        simpa [OutboundQueue.isIdle] using hflight
      suffices hdone : w.Done before from hdone
      rw [done_iff hq hbefore]
      rintro turn - (hturn | ⟨item, hitem, -⟩)
      · rw [hnone] at hturn
        cases hturn
      · rw [hq.idle hnone] at hitem
        cases hitem

/-- The moment of a deciding answer, over every history of prompts and every stream of
events: an entry gate that lets the run go is right, and a terminal that the run pulls is the
end of the work that was there when it connected if and only if nothing of it waits and the
terminal is the one of the turn in flight. -/
theorem poll_done_iff (bridge : Handshake) (session : String) (capacity : Nat) (steps : List Step)
    (w w' : Watched) (wait : Wait) (id timeoutMs : Nat) (exchange : Exchange) (state : TurnState)
    (hrun : run? bridge { driven := .established session capacity } steps = some w)
    (hwait : w.wait = some wait) (hpoll : w.step? bridge (.poll id timeoutMs exchange) = some w')
    (hreturned : w'.wait = some { wait with phase := .returned state })
    (hidle : state = .idleAtEntry ∨ state = .wentIdle) :
    w'.Done wait.before ↔ state = .idleAtEntry ∨ w.Clears wait.before := by
  have hw : Watches session w := (Watches.established session capacity).run? hrun
  obtain ⟨q, hq⟩ := hw.owes
  have hbefore := hw.before wait hwait
  obtain ⟨wait', hwait', hpoll⟩ := Option.bind_eq_some_iff.mp hpoll
  cases hwait.symm.trans hwait'
  cases hphase : wait.phase with
  | returned => simp [hphase] at hpoll
  | entry =>
      rw [hphase] at hpoll
      obtain ⟨⟨answer, w₁⟩, hexchange, hpoll⟩ := Option.bind_eq_some_iff.mp hpoll
      cases hpoll
      have hgate : entryGate answer = .returned state := by
        injection hreturned with hreturned
        exact congrArg Wait.phase hreturned
      have hentry : state = .idleAtEntry := by
        unfold entryGate at hgate
        split at hgate <;> cases hgate
        rfl
      subst hentry
      have hdone := done_of_entryGate hq hbefore hexchange hgate
      exact iff_of_true hdone (.inl rfl)
  | polling =>
      rw [hphase] at hpoll
      obtain ⟨⟨answer, w₁⟩, hexchange, hpoll⟩ := Option.bind_eq_some_iff.mp hpoll
      cases hpoll
      have hpolled : pollOnce (answer.bind decodeUpdate) = .returned state := by
        injection hreturned with hreturned
        exact congrArg Wait.phase hreturned
      have hentry : state ≠ .idleAtEntry := by
        rintro rfl
        unfold pollOnce at hpolled
        dsimp only at hpolled
        split at hpolled
        · split at hpolled <;> cases hpolled
        · cases hpolled
        · cases hpolled
      have hfailed : ∀ e, answer ≠ .error e := by
        rintro e rfl
        cases hpolled
        simp at hidle
      rw [or_iff_right hentry]
      cases exchange with
      | unserved =>
          cases hexchange
          exact absurd rfl (hfailed _)
      | unanswered =>
          obtain ⟨⟨reply, w₂⟩, -, hexchange⟩ := Option.bind_eq_some_iff.mp hexchange
          cases hexchange
          exact absurd rfl (hfailed _)
      | answered =>
          obtain ⟨⟨reply, w₂⟩, hdispatch, hexchange⟩ := Option.bind_eq_some_iff.mp hexchange
          obtain ⟨answer', -, hexchange⟩ := Option.bind_eq_some_iff.mp hexchange
          cases hexchange
          have hdone : w₁.Done wait.before ↔ w.Clears wait.before := done_pull_iff hq hbefore hdispatch
          exact hdone

/-- A run that finds a turn in flight, and the terminal of that turn. -/
def midTurn : List Step :=
  [.client 1 (.prompt "a" "x"), .connect, .poll 1 0 .answered, .post (.terminal "s" "s#t0" .endTurn)]

theorem poll_done_midTurn : ∃ w, run? Residence.noHandshake { driven := .established "s" 4 }
    (midTurn ++ [.poll 2 0 .answered]) = some w ∧
      w.wait = some { before := ["s#t0"], phase := .returned .wentIdle } ∧ w.Done ["s#t0"] := by
  refine ⟨_, rfl, rfl, ?_⟩
  refine (poll_done_iff Residence.noHandshake "s" 4 midTurn _ _ { before := ["s#t0"], phase := .polling } 2 0
    .answered .wentIdle rfl rfl rfl rfl (.inr rfl)).mpr (.inr ?_)
  intro turn hturn q hq
  cases hq
  cases List.mem_singleton.mp hturn
  refine ⟨?_, fun _ => ⟨_, rfl, rfl⟩⟩
  rintro ⟨item, hitem, -⟩
  cases hitem

/-- A second prompt waits in the backlog behind the turn in flight. -/
def midBacklog : List Step := Step.client 1 (.prompt "b" "x") :: midTurn ++ [Step.poll 2 0 .answered]

theorem midBacklog_not_done : ¬ ∀ (steps : List Step) (w : Watched) (wait : Wait),
    run? Residence.noHandshake { driven := .established "s" 4 } steps = some w → w.wait = some wait →
      wait.phase = .returned .wentIdle → w.Done wait.before := by
  intro h
  obtain ⟨-, hheld⟩ := h midBacklog _ _ rfl rfl rfl "s#t1" (by decide)
  exact hheld _ rfl (.inl rfl)

end Watched

end QuorumDispatch.Acp
