import QuorumDispatch.Acp.Host

/-!
The turns of a host: what was accepted is sent in order, one turn at a time, whatever the
bridge puts on the bus.
-/

namespace QuorumDispatch.Acp

open Lib

theorem takers_slotOps (log : List Entry) :
    SlotOp.takers (slotOps log) = (prompts log).map Prod.fst := by
  induction log with
  | nil => rfl
  | cons entry log ih =>
      unfold slotOps prompts at ih ⊢
      cases entry with
      | accepted | refused | cancelled | quiet => exact ih
      | consumed e => cases e <;> exact ih
      | sent c =>
          cases c with
          | cancel => exact ih
          | prompt session turn text => exact congrArg (turn :: ·) ih

/-- The queue after a log of the host. What was accepted was sent, or waits; the turn in
flight has the slot. -/
structure Loaded (session : String) (q : OutboundQueue) (log : List Entry) : Prop where
  key : q.session = session
  accepted : accepted log = prompts log ++ q.pending.map fun item => (item.turn, item.message)
  turns : (Acp.accepted log).map Prod.fst = (List.range q.nextSeq).map (turnId session)
  holder : SlotOp.holder (slotOps log) = q.inFlight
  exclusive : SlotOp.Exclusive (slotOps log)
  bound : q.pending.length ≤ q.capacity

namespace Loaded

variable {session : String} {q q' : OutboundQueue} {log : List Entry}

theorem new (session : String) (capacity : Nat) : Loaded session (.new session capacity) [] where
  key := rfl
  accepted := rfl
  turns := rfl
  holder := rfl
  exclusive := .nil
  bound := Nat.zero_le _

/-- Turns are told apart by their ids. -/
theorem nodup (h : Loaded session q log) : ((Acp.accepted log).map Prod.fst).Nodup := by
  rw [h.turns]
  exact List.nodup_range.map fun _ _ => turnId_injective session

theorem snoc (h : Loaded session q log) {entry : Entry} (haccepted : entry.accepted? = none)
    (hprompt : entry.prompt? = none) (hslot : entry.slotOp? = none) :
    Loaded session q (log ++ [entry]) := by
  have hlog : Acp.accepted (log ++ [entry]) = Acp.accepted log ∧ prompts (log ++ [entry]) = prompts log ∧
      slotOps (log ++ [entry]) = slotOps log := by
    simp [Acp.accepted, prompts, slotOps, haccepted, hprompt, hslot]
  obtain ⟨hacc, hprompts, hops⟩ := hlog
  exact ⟨h.key, by rw [hacc, hprompts]; exact h.accepted, by rw [hacc]; exact h.turns,
    by rw [hops]; exact h.holder, by rw [hops]; exact h.exclusive, h.bound⟩

theorem enqueue (h : Loaded session q log) (hroom : ¬q.capacity ≤ q.pending.length)
    (message sender : String) :
    Loaded session { q with
        nextSeq := q.nextSeq + 1
        pending := q.pending ++ [{ turn := turnId q.session q.nextSeq, message, sender }] }
      (log ++ [Entry.accepted (turnId q.session q.nextSeq) message]) := by
  have hacc : Acp.accepted (log ++ [Entry.accepted (turnId q.session q.nextSeq) message]) =
      Acp.accepted log ++ [(turnId q.session q.nextSeq, message)] := by
    simp [Acp.accepted, Entry.accepted?]
  have hprompts : prompts (log ++ [Entry.accepted (turnId q.session q.nextSeq) message]) = prompts log := by
    simp [prompts, Entry.prompt?]
  have hops : slotOps (log ++ [Entry.accepted (turnId q.session q.nextSeq) message]) = slotOps log := by
    simp [slotOps, Entry.slotOp?]
  refine ⟨h.key, ?_, ?_, ?_, ?_, ?_⟩
  · rw [hacc, hprompts, h.accepted]
    simp
  · rw [hacc, List.map_append, h.turns, List.range_succ, List.map_append, h.key,
      List.map_singleton, List.map_singleton]
  · rw [hops]
    exact h.holder
  · rw [hops]
    exact h.exclusive
  · simp only [List.length_append, List.length_singleton]
    omega

theorem complete (h : Loaded session q log) {e : BusEvent} {turn : String}
    (hturn : e.terminalTurn = some turn) :
    Loaded session (q.complete turn).2 (log ++ [Entry.consumed e]) := by
  have hacc : Acp.accepted (log ++ [Entry.consumed e]) = Acp.accepted log := by
    simp [Acp.accepted, Entry.accepted?]
  have hprompts : prompts (log ++ [Entry.consumed e]) = prompts log := by simp [prompts, Entry.prompt?]
  have hops : slotOps (log ++ [Entry.consumed e]) = slotOps log ++ [SlotOp.free turn] := by
    simp [slotOps, Entry.slotOp?, hturn]
  rw [OutboundQueue.complete_inFlight]
  refine ⟨h.key, ?_, ?_, ?_, ?_, h.bound⟩
  · rw [hacc, hprompts]
    exact h.accepted
  · rw [hacc]
    exact h.turns
  · rw [hops, SlotOp.holder_snoc, SlotOp.next, h.holder]
  · rw [hops]
    exact h.exclusive.snoc fun a ha => by cases ha

theorem consume (h : Loaded session q log) {e : BusEvent} (hturn : e.terminalTurn = none) :
    Loaded session q (log ++ [Entry.consumed e]) :=
  h.snoc rfl rfl (by simp [Entry.slotOp?, hturn])

theorem release (h : Loaded session q log) (hnone : q.inFlight = none) {item : QueuedInject}
    {pending : List QueuedInject} (hpending : q.pending = item :: pending) :
    Loaded session { q with inFlight := some item.turn, pending }
      (log ++ [Entry.sent (.prompt session item.turn item.message)]) := by
  have hacc : Acp.accepted (log ++ [Entry.sent (.prompt session item.turn item.message)]) =
      Acp.accepted log := by
    simp [Acp.accepted, Entry.accepted?]
  have hprompts : prompts (log ++ [Entry.sent (.prompt session item.turn item.message)]) =
      prompts log ++ [(item.turn, item.message)] := by
    simp [prompts, Entry.prompt?]
  have hops : slotOps (log ++ [Entry.sent (.prompt session item.turn item.message)]) =
      slotOps log ++ [SlotOp.take item.turn] := by
    simp [slotOps, Entry.slotOp?]
  refine ⟨h.key, ?_, ?_, ?_, ?_, ?_⟩
  · rw [hacc, hprompts, h.accepted, hpending]
    simp
  · rw [hacc]
    exact h.turns
  · rw [hops, SlotOp.holder_snoc, SlotOp.next]
  · rw [hops]
    exact h.exclusive.snoc fun _ _ => h.holder.trans hnone
  · have := h.bound
    rw [hpending, List.length_cons] at this
    exact Nat.le_of_succ_le this

end Loaded

def promptTurns (commands : List Command) : List String := commands.filterMap fun
  | .prompt _ turn _ => some turn
  | .cancel _ => none

/-- A host between two calls: an item waits behind a turn only. -/
structure Serial (session : String) (capacity : Nat) (s : Driven) (q : OutboundQueue) : Prop where
  loaded : Loaded session q s.log
  idle : q.inFlight = none → q.pending = []
  capacity : q.capacity = max capacity 1
  queue : s.host.queue = some q
  session : s.host.session = some session
  isOpen : s.host.isOpen = true

variable {session : String} {capacity : Nat} {s s' : Driven} {q : OutboundQueue}

/-- Releasing settles a queue: what is sent is in flight, behind nothing. -/
theorem Loaded.settle {h : AcpHost} {log : List Entry} (hl : Loaded session q log)
    (hcapacity : q.capacity = max capacity 1) (hqueue : h.queue = some q)
    (hsession : h.session = some session) (hopen : h.isOpen = true) :
    ∃ h' new q', h.releaseNext = (.ok (), h') ∧ h'.sent = h.sent ++ new ∧
      Serial session capacity { host := h', log := log ++ new.map .sent } q' ∧
      q'.inFlight.toList = q.inFlight.toList ++ promptTurns new := by
  cases hflight : q.inFlight with
  | some turn =>
      refine ⟨h, [], q, ?_, by simp,
        ⟨by simpa using hl, by simp [hflight], hcapacity, hqueue, hsession, hopen⟩, by simp [promptTurns, hflight]⟩
      simp [AcpHost.releaseNext, hsession, hqueue, OutboundQueue.tryRelease, hflight]
  | none =>
      cases hpending : q.pending with
      | nil =>
          refine ⟨h, [], q, ?_, by simp,
            ⟨by simpa using hl, fun _ => hpending, hcapacity, hqueue, hsession, hopen⟩, by simp [promptTurns, hflight]⟩
          simp [AcpHost.releaseNext, hsession, hqueue, OutboundQueue.tryRelease, hflight, hpending]
      | cons item pending =>
          refine ⟨{ h with
              queue := some { q with inFlight := some item.turn, pending }
              updatesSeen := 0
              sent := h.sent ++ [Command.prompt session item.turn item.message] },
            [.prompt session item.turn item.message], { q with inFlight := some item.turn, pending }, ?_, rfl,
            ⟨hl.release hflight hpending, (by rintro ⟨⟩), hcapacity, rfl, hsession, hopen⟩, rfl⟩
          simp [AcpHost.releaseNext, AcpHost.send, hsession, hqueue, OutboundQueue.tryRelease, hflight,
            hpending, hopen]

namespace Serial

theorem established (session : String) (capacity : Nat) :
    Serial session capacity (.established session capacity) (.new session capacity) :=
  ⟨.new session capacity, fun _ => rfl, rfl, rfl, rfl, rfl⟩

/-- The state after a call that put `entry` into the log and left `h` to be settled. -/
theorem record {entry : Entry} {h : AcpHost} {q : OutboundQueue}
    (hl : Loaded session q (s.log ++ [entry])) (hcapacity : q.capacity = max capacity 1)
    (hqueue : h.queue = some q) (hsession : h.session = some session) (hopen : h.isOpen = true)
    (hsent : h.sent = s.host.sent) :
    ∃ h' q', h.releaseNext = (.ok (), h') ∧ Serial session capacity (s.record entry h') q' ∧
      q'.inFlight.toList = q.inFlight.toList ++ promptTurns (h'.sent.drop s.host.sent.length) := by
  obtain ⟨h', new, q', hrelease, hnew, hserial, hturns⟩ := hl.settle hcapacity hqueue hsession hopen
  have hdrop : h'.sent.drop s.host.sent.length = new := by simp [hnew, hsent]
  refine ⟨h', q', hrelease, ?_, hdrop ▸ hturns⟩
  rw [Driven.record, hdrop, ← List.singleton_append, ← List.append_assoc]
  exact hserial

/-- An entry that is about no turn, and a host with the same queue. -/
theorem idleEntry (h : Serial session capacity s q) {entry : Entry} {host : AcpHost} {new : List Command}
    (hentry : Loaded session q (s.log ++ [entry])) (hqueue : host.queue = s.host.queue)
    (hsession : host.session = s.host.session) (hopen : host.isOpen = s.host.isOpen)
    (hsent : host.sent = s.host.sent ++ new) (hnew : ∀ c ∈ new, ∃ session, c = .cancel session) :
    Serial session capacity (s.record entry host) q := by
  have hrecord : s.record entry host =
      { host, log := s.log ++ [entry] ++ new.map Entry.sent } := by
    simp [Driven.record, hsent]
  rw [hrecord]
  refine ⟨?_, h.idle, h.capacity, hqueue.trans h.queue, hsession.trans h.session, hopen.trans h.isOpen⟩
  clear hrecord hsent
  induction new using List.reverseRecOn with
  | nil => simpa using hentry
  | append_singleton new c ih =>
      obtain ⟨session', rfl⟩ := hnew c (by simp)
      rw [List.map_append, ← List.append_assoc]
      exact (ih fun c hc => hnew c (List.mem_append_left _ hc)).snoc rfl rfl rfl

def leftInFlight (inFlight : Option String) : Received → Option String
  | .event e => if inFlight.isSome ∧ e.terminalTurn = inFlight then none else inFlight
  | _ => inFlight

theorem nextUpdate (h : Serial session capacity s q) (received : Received)
    (hstep : s.step? (.nextUpdate received) = some s') :
    ∃ q', Serial session capacity s' q' ∧ q'.inFlight.toList =
      (leftInFlight q.inFlight received).toList ++ promptTurns (s'.host.sent.drop s.host.sent.length) := by
  have hidle : ∀ {entry : Entry} {host : AcpHost}, Loaded session q (s.log ++ [entry]) →
      host.queue = s.host.queue → host.session = s.host.session → host.isOpen = s.host.isOpen →
      host.sent = s.host.sent → Serial session capacity (s.record entry host) q ∧
        q.inFlight.toList = q.inFlight.toList ++ promptTurns (host.sent.drop s.host.sent.length) := by
    intro entry host hentry hqueue hsession hopen hsent
    refine ⟨h.idleEntry hentry hqueue hsession hopen (hsent.trans (List.append_nil _).symm) (by simp), ?_⟩
    simp [hsent, promptTurns]
  cases received with
  | timeout =>
      cases hstep
      exact ⟨q, hidle (h.loaded.snoc rfl rfl rfl) rfl rfl rfl rfl⟩
  | disconnected =>
      cases hstep
      exact ⟨q, hidle (h.loaded.snoc rfl rfl rfl) rfl rfl rfl rfl⟩
  | event e =>
      cases hstep
      have hfinish : ∀ {turn obs event}, e.terminalTurn = some turn →
          ∃ q', Serial session capacity (s.record (.consumed e) (s.host.finishTurn turn obs event).2) q' ∧
            q'.inFlight.toList = (leftInFlight q.inFlight (.event e)).toList ++
              promptTurns ((s.host.finishTurn turn obs event).2.sent.drop s.host.sent.length) := by
        intro turn obs event hturn
        have hleft : (q.complete turn).2.inFlight = leftInFlight q.inFlight (.event e) := by
          rw [OutboundQueue.complete_inFlight, leftInFlight, hturn]
          cases q.inFlight <;> simp [eq_comm]
        obtain ⟨h', q', hrelease, hserial, hturns⟩ := Serial.record
          (h := { s.host with queue := s.host.queue.map fun queue => (queue.complete turn).2, lastObs := obs })
          (h.loaded.complete hturn) (by rw [OutboundQueue.complete_inFlight]; exact h.capacity)
          (by simp [h.queue]) h.session h.isOpen rfl
        refine ⟨q', ?_⟩
        rw [AcpHost.finishTurn, hrelease, ← hleft]
        exact ⟨hserial, hturns⟩
      have hleft : e.terminalTurn = none → leftInFlight q.inFlight (.event e) = q.inFlight := by
        intro hnone
        rw [leftInFlight, if_neg]
        rintro ⟨hsome, heq⟩
        rw [← heq, hnone] at hsome
        cases hsome
      cases e with
      | update =>
          rw [hleft rfl]
          exact ⟨q, hidle (h.loaded.consume rfl) rfl rfl rfl rfl⟩
      | closed =>
          rw [hleft rfl]
          exact ⟨q, hidle (h.loaded.consume rfl) rfl rfl rfl rfl⟩
      | terminal => exact hfinish rfl
      | terminalError => exact hfinish rfl

/-- A full queue refuses and stays as it is. -/
theorem prompt?_cases (h : Serial session capacity s q) {text sender : String}
    {r : Except AcpError String × AcpHost} (hprompt : s.host.prompt? text sender = some r) :
    (q.capacity ≤ q.pending.length ∧ r = (.error .queueFull, s.host)) ∨
      ∃ turn h' q', r = (.ok turn, h') ∧
        Serial session capacity (s.record (.accepted turn text) h') q' ∧
        q'.inFlight.toList = q.inFlight.toList ++ promptTurns (h'.sent.drop s.host.sent.length) := by
  unfold AcpHost.prompt? at hprompt
  split at hprompt
  next queue _ hqueue =>
    cases h.queue.symm.trans hqueue
    obtain ⟨⟨turn, queue⟩, henqueue, hprompt⟩ := Option.bind_eq_some_iff.mp hprompt
    by_cases hroom : q.capacity ≤ q.pending.length
    · rw [OutboundQueue.enqueue?_full hroom] at henqueue
      cases henqueue
      cases hprompt
      exact .inl ⟨hroom, rfl⟩
    · cases OutboundQueue.enqueue?_accepts hroom henqueue
      obtain ⟨h', q', hrelease, hserial⟩ := Serial.record
        (h := { s.host with queue := some _ }) (h.loaded.enqueue hroom text sender) h.capacity rfl
        h.session h.isOpen rfl
      dsimp only at hprompt
      rw [hrelease] at hprompt
      cases hprompt
      exact .inr ⟨_, h', q', rfl, hserial⟩
  next hnone => exact absurd h.queue (hnone _ _ h.session)

theorem prompt (h : Serial session capacity s q) {text sender : String}
    (hstep : s.step? (.prompt text sender) = some s') :
    ∃ q', Serial session capacity s' q' ∧ q'.inFlight.toList =
      q.inFlight.toList ++ promptTurns (s'.host.sent.drop s.host.sent.length) := by
  obtain ⟨r, hprompt, hstep⟩ := Option.bind_eq_some_iff.mp hstep
  rcases h.prompt?_cases hprompt with ⟨-, rfl⟩ | ⟨turn, h', q', rfl, hserial⟩
  · cases hstep
    refine ⟨q, h.idleEntry (h.loaded.snoc rfl rfl rfl) rfl rfl rfl (List.append_nil _).symm (by simp), ?_⟩
    simp [Driven.record, promptTurns]
  · cases hstep
    exact ⟨q', hserial⟩

theorem cancel (h : Serial session capacity s q) (hstep : s.step? .cancel = some s') :
    Serial session capacity s' q ∧ promptTurns (s'.host.sent.drop s.host.sent.length) = [] := by
  have hcancel : s.host.cancel =
      (.ok (), { s.host with sent := s.host.sent ++ [Command.cancel session] }) := by
    simp [AcpHost.cancel, AcpHost.send, h.session, h.isOpen]
  unfold Driven.step? at hstep
  dsimp only at hstep
  rw [hcancel] at hstep
  cases hstep
  refine ⟨?_, by simp [Driven.record, promptTurns]⟩
  have hsent : s.host.sent ++ [Command.cancel session] = s.host.sent ++ [Command.cancel session] := rfl
  exact h.idleEntry (h.loaded.snoc rfl rfl rfl) rfl rfl rfl hsent (by simp)

theorem step? (h : Serial session capacity s q) {call : Call} (hstep : s.step? call = some s') :
    ∃ q', Serial session capacity s' q' := by
  cases call with
  | nextUpdate received =>
      obtain ⟨q', hserial, -⟩ := h.nextUpdate received hstep
      exact ⟨q', hserial⟩
  | prompt text sender =>
      obtain ⟨q', hserial, -⟩ := h.prompt hstep
      exact ⟨q', hserial⟩
  | cancel => exact ⟨q, (h.cancel hstep).1⟩

theorem run? (h : Serial session capacity s q) {calls : List Call} (hrun : s.run? calls = some s') :
    ∃ q', Serial session capacity s' q' := by
  have hloop : Ensures (s.run? calls) fun s' => ∃ q', Serial session capacity s' q' :=
    .foldlM ⟨q, h⟩ fun _ _ _ ⟨_, h⟩ _ hstep => h.step? hstep
  exact hloop s' hrun

end Serial

/-- Between two prompts in a row the terminal of the first was consumed. -/
theorem Loaded.consumed_between {log pre mid post : List Entry} (h : Loaded session q log)
    {key turn text key' turn' text' : String}
    (hlog : log = pre ++ Entry.sent (.prompt key turn text) :: (mid ++ Entry.sent (.prompt key' turn' text') :: post))
    (hmid : prompts mid = []) : ∃ e, .consumed e ∈ mid ∧ e.terminalTurn = some turn := by
  have hops : slotOps log = slotOps pre ++ SlotOp.take turn :: (slotOps mid ++ SlotOp.take turn' :: slotOps post) := by
    rw [hlog]
    simp [slotOps, Entry.slotOp?]
  have hfree : .free turn ∈ slotOps mid :=
    h.exclusive.freed_between hops (by rw [takers_slotOps, hmid]; rfl)
  obtain ⟨entry, hmem, hentry⟩ := List.mem_filterMap.mp hfree
  cases entry with
  | consumed e =>
      obtain ⟨turn'', hturn, heq⟩ := Option.map_eq_some_iff.mp hentry
      cases heq
      exact ⟨e, hmem, hturn⟩
  | sent c => cases c <;> cases hentry
  | _ => cases hentry

namespace Driven

/-- Over every history of calls and of bus events: what was accepted is sent in order, the
first prompt at once, and each further one after the terminal of the turn before it; the
turns are distinct; the backlog is bounded; and what a full queue refuses leaves no trace. -/
theorem run?_serializes (session : String) (capacity : Nat) (calls : List Call) (s : Driven)
    (hrun : (established session capacity).run? calls = some s) :
    prompts s.log <+: accepted s.log ∧
    ((accepted s.log).map Prod.fst).Nodup ∧
    (accepted s.log ≠ [] → prompts s.log ≠ []) ∧
    (∀ pre key turn text mid key' turn' text' post,
      s.log = pre ++ .sent (.prompt key turn text) ::
        (mid ++ .sent (.prompt key' turn' text') :: post) → prompts mid = [] →
        ∃ e, .consumed e ∈ mid ∧ e.terminalTurn = some turn) ∧
    (∀ q ∈ s.host.queue, q.pending.length ≤ max capacity 1) ∧
    ∀ text sender host, s.host.prompt? text sender = some (.error .queueFull, host) → host = s.host := by
  obtain ⟨q, h⟩ := (Serial.established session capacity).run? hrun
  refine ⟨⟨_, h.loaded.accepted.symm⟩, h.loaded.nodup, fun haccepted hprompts => ?_, ?_, ?_, ?_⟩
  · -- with no prompt sent there is no turn in flight, and so nothing waits
    have hnone : q.inFlight = none := by
      have htakers := takers_slotOps s.log
      rw [hprompts, List.map_nil] at htakers
      rw [← h.loaded.holder]
      exact SlotOp.holder_of_takers_nil htakers
    rw [h.loaded.accepted, hprompts, h.idle hnone] at haccepted
    exact haccepted rfl
  · intro pre key turn text mid key' turn' text' post hlog hmid
    exact h.loaded.consumed_between hlog hmid
  · intro q' hq'
    cases h.queue.symm.trans hq'
    rw [← h.capacity]
    exact h.loaded.bound
  · intro text sender host hprompt
    rcases h.prompt?_cases hprompt with ⟨-, hr⟩ | ⟨turn, h', q', hr, -⟩
    · exact (Prod.ext_iff.mp hr).2
    · cases (Prod.ext_iff.mp hr).1

/-- Three prompts on a queue for one, with a stale terminal and the one of the first turn. -/
def threePrompts : List Call :=
  [.prompt "a" "x", .prompt "b" "x", .prompt "c" "x",
    .nextUpdate (.event (.terminal "s" "s#t1" .endTurn)),
    .nextUpdate (.event (.terminal "s" "s#t0" .endTurn))]

theorem run?_serializes_threePrompts : ∃ s, (established "s" 1).run? threePrompts = some s ∧
    prompts s.log = [("s#t0", "a"), ("s#t1", "b")] ∧ prompts s.log <+: accepted s.log := by
  have hrun : ∃ s, (established "s" 1).run? threePrompts = some s ∧
      prompts s.log = [("s#t0", "a"), ("s#t1", "b")] := ⟨_, rfl, by decide⟩
  obtain ⟨s, hrun, hprompts⟩ := hrun
  exact ⟨s, hrun, hprompts, (run?_serializes "s" 1 threePrompts s hrun).1⟩

end Driven

end QuorumDispatch.Acp
