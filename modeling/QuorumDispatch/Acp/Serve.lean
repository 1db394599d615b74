import QuorumDispatch.Acp.Wire

/-!
The serve loop over a resident, between two requests. The bridge answers each prompt that it
was given with a terminal on the bus; the terminal is taken off the bus when a client pulls.
-/

namespace QuorumDispatch.Acp

open Lib

/-- The resident with its bus, and the prompts, by session and turn, that the bridge was
given and has not answered. -/
structure Residence where
  driven : Driven
  bus : List BusEvent := []
  owed : List (String × String) := []

def owedTurns (commands : List Command) : List (String × String) := commands.filterMap fun
  | .prompt session turn _ => some (session, turn)
  | .cancel _ => none

theorem map_snd_owedTurns (commands : List Command) :
    (owedTurns commands).map Prod.snd = promptTurns commands := by
  rw [owedTurns, promptTurns, List.map_filterMap]
  congr 1
  funext c
  cases c <;> rfl

def terminals (bus : List BusEvent) : List String := bus.filterMap BusEvent.terminalTurn

namespace Residence

def established (session : String) (capacity : Nat) : Residence :=
  { driven := .established session capacity }

/-- A receive takes what is on the bus, and times out on an empty one. -/
def received (r : Residence) : Received := (r.bus.head?.map .event).getD .timeout

def after (r : Residence) (driven : Driven) (bus : List BusEvent) : Residence :=
  { driven, bus, owed := r.owed ++ owedTurns (driven.host.sent.drop r.driven.host.sent.length) }

def dispatch? (bridge : Handshake) (r : Residence) (req : Json) :
    Option (Except AcpError Json × Residence) := do
  let (reply, driven) ← dispatchRequest? bridge r.received r.driven req
  some (reply, r.after driven (if req.strField "m" = some "next_update" then r.bus.tail else r.bus))

def answerEvent (session turn : String) : Except String StopReason → BusEvent
  | .ok stop => .terminal session turn stop
  | .error message => .terminalError session turn message

inductive Step where
  | update (session kind : String) (payload : Json)
  | answer (i : Nat) (outcome : Except String StopReason)
  | request (id : Nat) (req : Request)

def step? (bridge : Handshake) (r : Residence) : Step → Option Residence
  | .update session kind payload => some { r with bus := r.bus ++ [BusEvent.update session kind payload] }
  | .answer i outcome => do
      let (session, turn) ← r.owed[i]?
      some { r with bus := r.bus ++ [answerEvent session turn outcome], owed := r.owed.eraseIdx i }
  | .request id req => (r.dispatch? bridge (req.frame id)).map Prod.snd

def run? (bridge : Handshake) (r : Residence) (steps : List Step) : Option Residence :=
  steps.foldlM (step? bridge) r

/-- No accepted prompt waits in the backlog, and the resident says that it is idle. -/
def Rests (bridge : Handshake) (r : Residence) : Prop :=
  r.driven.host.queue.map OutboundQueue.pending = some [] ∧
    ∀ id, ∃ v, r.dispatch? bridge (Request.status.frame id) = some (.ok v, r) ∧
      v.get "in_flight" = some (.bool false)

/-- The turn in flight is owed by the bridge, or its terminal is on the bus. -/
structure Attended (session : String) (capacity : Nat) (r : Residence) (q : OutboundQueue) : Prop where
  serial : Serial session capacity r.driven q
  turns : r.owed.map Prod.snd ++ terminals r.bus = q.inFlight.toList

variable {bridge : Handshake} {session : String} {capacity : Nat} {r r' : Residence} {q : OutboundQueue}

theorem Attended.established (session : String) (capacity : Nat) :
    Attended session capacity (.established session capacity) (.new session capacity) :=
  ⟨.established session capacity, rfl⟩

theorem Attended.after {driven : Driven} {bus : List BusEvent} {left : Option String} {q' : OutboundQueue}
    (hserial : Serial session capacity driven q')
    (hq : q'.inFlight.toList =
      left.toList ++ promptTurns (driven.host.sent.drop r.driven.host.sent.length))
    (hleft : r.owed.map Prod.snd ++ terminals bus = left.toList) :
    Attended session capacity (r.after driven bus) q' := by
  refine ⟨hserial, ?_⟩
  have hnew := map_snd_owedTurns (driven.host.sent.drop r.driven.host.sent.length)
  rw [Residence.after, hq, ← hleft, List.map_append, hnew]
  rcases hterminals : terminals bus with _ | ⟨turn, rest⟩
  · simp
  · -- a terminal on the bus leaves the slot taken: nothing was sent
    have hsent : promptTurns (driven.host.sent.drop r.driven.host.sent.length) = [] := by
      have hlen := congrArg List.length hq
      rw [← hleft, hterminals] at hlen
      have hle : q'.inFlight.toList.length ≤ 1 := by cases q'.inFlight <;> simp
      simp only [List.length_append, List.length_cons] at hlen
      exact List.length_eq_zero_iff.mp (by omega)
    simp [hsent]

theorem Attended.pull (h : Attended session capacity r q) {driven : Driven}
    (hstep : r.driven.step? (.nextUpdate r.received) = some driven) :
    ∃ q', Attended session capacity (r.after driven r.bus.tail) q' := by
  obtain ⟨q', hserial, hturns⟩ := h.serial.nextUpdate r.received hstep
  refine ⟨q', .after hserial hturns ?_⟩
  have hbefore := h.turns
  unfold received
  cases hbus : r.bus with
  | nil =>
      rw [hbus] at hbefore
      exact hbefore
  | cons e rest =>
      rw [hbus] at hbefore
      change _ = (Serial.leftInFlight q.inFlight (.event e)).toList
      cases hterminal : e.terminalTurn with
      | none =>
          have hleft : Serial.leftInFlight q.inFlight (.event e) = q.inFlight := by
            unfold Serial.leftInFlight
            cases q.inFlight <;> simp [hterminal]
          rw [hleft, ← hbefore]
          simp [terminals, hterminal]
      | some turn =>
          -- the terminal on the bus is the one of the turn in flight
          have hcons : r.owed.map Prod.snd ++ turn :: terminals rest = q.inFlight.toList := by
            rw [← hbefore]
            simp [terminals, hterminal]
          cases hflight : q.inFlight with
          | none =>
              rw [hflight] at hcons
              simp at hcons
          | some turn' =>
              rw [hflight] at hcons
              have hsingle := List.append_eq_singleton_iff.mp hcons
              obtain ⟨howed, hrest⟩ := hsingle.resolve_right (by simp)
              obtain ⟨rfl, hnil⟩ := List.cons_eq_cons.mp hrest
              simp [howed, Serial.leftInFlight, hterminal, hnil]

theorem Attended.dispatch? (h : Attended session capacity r q) {req : Request} {id : Nat}
    {reply : Except AcpError Json} (hdispatch : r.dispatch? bridge (req.frame id) = some (reply, r')) :
    ∃ q', Attended session capacity r' q' := by
  obtain ⟨⟨reply, driven⟩, hreq, hdispatch⟩ := Option.bind_eq_some_iff.mp hdispatch
  cases hdispatch
  cases req with
  | prompt text sender =>
      obtain ⟨hstep, -⟩ := dispatchRequest?_prompt bridge r.received r.driven id text sender hreq
      obtain ⟨q', hserial, hturns⟩ := h.serial.prompt hstep
      exact ⟨q', .after hserial hturns h.turns⟩
  | cancel =>
      obtain ⟨hstep, -⟩ := dispatchRequest?_cancel bridge r.received r.driven id hreq
      obtain ⟨hserial, hturns⟩ := h.serial.cancel hstep
      exact ⟨q, .after hserial (by rw [hturns, List.append_nil]) h.turns⟩
  | nextUpdate timeoutMs =>
      obtain ⟨hstep, -⟩ := dispatchRequest?_nextUpdate bridge r.received r.driven id timeoutMs hreq
      exact h.pull hstep
  | status =>
      cases hreq
      exact ⟨q, .after h.serial (by simp [promptTurns]) h.turns⟩

theorem Attended.step? (h : Attended session capacity r q) {step : Step}
    (hstep : r.step? bridge step = some r') : ∃ q', Attended session capacity r' q' := by
  cases step with
  | update =>
      cases hstep
      exact ⟨q, h.serial, by rw [← h.turns]; simp [terminals, BusEvent.terminalTurn]⟩
  | answer i outcome =>
      obtain ⟨⟨key, turn⟩, howed, hstep⟩ := Option.bind_eq_some_iff.mp hstep
      cases hstep
      refine ⟨q, h.serial, ?_⟩
      have hterminal : (answerEvent key turn outcome).terminalTurn = some turn := by
        cases outcome <;> rfl
      obtain ⟨hi, hget⟩ := List.getElem?_eq_some_iff.mp howed
      have hle : q.inFlight.toList.length ≤ 1 := by cases q.inFlight <;> simp
      rw [← h.turns, List.length_append, List.length_map] at hle
      -- it was the only prompt that was owed
      obtain ⟨owed, hone⟩ := List.length_eq_one_iff.mp (show r.owed.length = 1 by omega)
      have hnone : terminals r.bus = [] := List.length_eq_zero_iff.mp (by omega)
      rw [← h.turns, hnone]
      simp only [hone, List.length_singleton, Nat.lt_one_iff] at hi
      subst hi
      simp only [hone, List.getElem_cons_zero] at hget
      subst hget
      simp [terminals, hone, hterminal, show r.bus.filterMap BusEvent.terminalTurn = [] from hnone]
  | request id req =>
      obtain ⟨⟨reply, r''⟩, hdispatch, rfl⟩ := Option.map_eq_some_iff.mp hstep
      exact h.dispatch? hdispatch

theorem Attended.run? (h : Attended session capacity r q) {steps : List Step}
    (hrun : r.run? bridge steps = some r') : ∃ q', Attended session capacity r' q' := by
  have hloop : Ensures (r.run? bridge steps) fun r' => ∃ q', Attended session capacity r' q' :=
    .foldlM ⟨q, h⟩ fun _ _ _ ⟨_, h⟩ _ hstep => h.step? hstep
  exact hloop r' hrun

theorem Attended.rests_iff (h : Attended session capacity r q) :
    r.Rests bridge ↔ q.inFlight = none := by
  have hstatus : ∀ id, r.dispatch? bridge (Request.status.frame id) = some (.ok (.obj
      [("session_id", .str session), ("in_flight", .bool q.inFlight.isSome)]), r) := by
    intro id
    have hflight : r.driven.host.inFlight = q.inFlight.isSome := by
      rw [AcpHost.inFlight, h.serial.queue]
      cases hq : q.inFlight <;> simp [OutboundQueue.isIdle, hq]
    have hsame : r.after r.driven r.bus = r := by
      simp [Residence.after, owedTurns]
    rw [Residence.dispatch?, dispatchRequest?_status, hflight, h.serial.session]
    show some (_, r.after r.driven r.bus) = _
    rw [hsame]
    rfl
  constructor
  · rintro ⟨-, hanswer⟩
    obtain ⟨v, hv, hflight⟩ := hanswer 0
    cases (hstatus 0).symm.trans hv
    cases hq : q.inFlight with
    | none => rfl
    | some turn =>
        rw [hq] at hflight
        cases hflight
  · intro hnone
    refine ⟨?_, fun id => ⟨_, hstatus id, ?_⟩⟩
    · rw [h.serial.queue, Option.map_some, h.serial.idle hnone]
    · rw [hnone]
      rfl

/-- Once the bridge has answered every prompt, the resident rests if and only if the clients
have pulled every terminal. -/
theorem rests_iff_pulled (bridge : Handshake) (session : String) (capacity : Nat) (steps : List Step)
    (r : Residence) (hrun : (established session capacity).run? bridge steps = some r)
    (hanswered : r.owed = []) : r.Rests bridge ↔ ∀ e ∈ r.bus, e.terminalTurn = none := by
  obtain ⟨q, h⟩ := (Attended.established session capacity).run? hrun
  rw [h.rests_iff]
  have hturns := h.turns
  rw [hanswered, List.map_nil, List.nil_append] at hturns
  constructor
  · intro hnone
    rw [hnone] at hturns
    exact List.filterMap_eq_nil_iff.mp hturns
  · intro hbus
    rw [terminals, List.filterMap_eq_nil_iff.mpr hbus] at hturns
    cases hq : q.inFlight with
    | none => rfl
    | some turn =>
        rw [hq] at hturns
        cases hturns

def noHandshake : Handshake := { greeting := .error .closed, newSession := fun _ => .error .closed }

/-- Two prompts that nobody waits for, and the answer to the first. -/
def twoSends : List Step :=
  [.request 1 (.prompt "a" "x"), .request 1 (.prompt "b" "x"), .answer 0 (.ok .endTurn)]

def twoPulls : List Step :=
  twoSends ++ [Step.request 1 (.nextUpdate 0), Step.answer 0 (.ok .endTurn), Step.request 1 (.nextUpdate 0)]

theorem rests_twoPulls : ∃ r, (established "s" 4).run? noHandshake twoPulls = some r ∧
    r.Rests noHandshake := by
  refine ⟨_, rfl, ?_⟩
  exact (rests_iff_pulled noHandshake "s" 4 twoPulls _ rfl rfl).mpr fun e he => by cases he

theorem twoSends_not_rests :
    ¬ ∀ (steps : List Step) (r : Residence), (established "s" 4).run? noHandshake steps = some r →
      r.owed = [] → r.Rests noHandshake := by
  intro h
  obtain ⟨hpending, -⟩ := h twoSends _ rfl rfl
  cases hpending

end Residence

end QuorumDispatch.Acp
