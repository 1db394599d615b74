import QuorumDispatch.Acp.Serve

/-!
The connections between the clients and the resident, one at a time. A request and its
answer are frames on the way; the client waits for the answer to its last request, and it
drops answers to earlier ones.
-/

namespace QuorumDispatch.Acp

open Lib

def BusEvent.event? : BusEvent → Option AcpEvent
  | .update session kind payload => some (.update session kind payload)
  | .terminal session turn stop => some (.terminal session turn stop)
  | .terminalError session turn message => some (.terminalError session turn message)
  | .closed _ => none

def Entry.event? : Entry → Option AcpEvent
  | .consumed e => e.event?
  | _ => none

def consumed (log : List Entry) : List AcpEvent := log.filterMap Entry.event?

@[simp] theorem consumed_append (log log' : List Entry) :
    consumed (log ++ log') = consumed log ++ consumed log' :=
  List.filterMap_append

@[simp] theorem consumed_sent (commands : List Command) : consumed (commands.map .sent) = [] := by
  induction commands with
  | nil => rfl
  | cons c commands ih => exact ih

theorem consumed_record (s : Driven) (entry : Entry) (host : AcpHost) :
    consumed (s.record entry host).log = consumed s.log ++ entry.event?.toList := by
  rw [Driven.record, ← List.singleton_append, consumed_append, consumed_append, consumed_sent,
    List.append_nil]
  cases h : entry.event? <;> simp [consumed, h]

def Call.event? : Call → Option AcpEvent
  | .nextUpdate (.event e) => e.event?
  | _ => none

theorem consumed_step? {s s' : Driven} {call : Call} (hstep : s.step? call = some s') :
    consumed s'.log = consumed s.log ++ call.event?.toList := by
  cases call with
  | prompt text sender =>
      obtain ⟨⟨result, host⟩, -, hstep⟩ := Option.bind_eq_some_iff.mp hstep
      cases result <;> cases hstep <;> exact consumed_record ..
  | cancel =>
      unfold Driven.step? at hstep
      dsimp only at hstep
      split at hstep <;> cases hstep <;> exact consumed_record ..
  | nextUpdate received => cases received <;> cases hstep <;> exact consumed_record ..

/-! ### What a receive answers -/

/-- The terminal would release a prompt that the connection does not take any more. -/
def AcpHost.strands (h : AcpHost) (turn : String) : Bool :=
  !h.isOpen && h.session.isSome && h.queue.any fun q => (q.complete turn).2.tryRelease.1.isSome

theorem AcpHost.finishTurn_of_not_strands {h : AcpHost} {turn : String} (hturn : h.strands turn = false)
    (obs : AcpTurnObservation) (event : AcpEvent) :
    (h.finishTurn turn obs event).1 = .ok (some event) := by
  obtain ⟨capacity, session, queue, updatesSeen, lastObs, transcript, isOpen, sent⟩ := h
  unfold AcpHost.finishTurn AcpHost.releaseNext
  cases session with
  | none => rfl
  | some session =>
      cases queue with
      | none => rfl
      | some q =>
          rcases hrelease : (q.complete turn).2.tryRelease with ⟨item, q'⟩
          cases item with
          | none => simp [hrelease]
          | some item =>
              have hopen : isOpen = true := by
                simpa [AcpHost.strands, hrelease] using hturn
              simp [hrelease, AcpHost.send, hopen]

theorem AcpHost.nextUpdate_of_event {h : AcpHost} {e : BusEvent} {event : AcpEvent}
    (hevent : e.event? = some event) (hturn : ∀ turn ∈ e.terminalTurn, h.strands turn = false) :
    (h.nextUpdate (.event e)).1 = .ok (some event) := by
  cases e with
  | update =>
      cases hevent
      rfl
  | closed => cases hevent
  | terminal session turn =>
      cases hevent
      exact finishTurn_of_not_strands (hturn turn rfl) _ _
  | terminalError session turn =>
      cases hevent
      exact finishTurn_of_not_strands (hturn turn rfl) _ _

/-! ### Frames -/

def replyFrame (req : Json) : Except AcpError Json → Json
  | .ok result => .obj [("id", (req.get "id").getD .null), ("ok", result)]
  | .error e => .obj [("id", (req.get "id").getD .null), ("e", encodeErr e)]

/-- `read_response`, at one frame: `none` if the frame is for another request. -/
def readFrame? (want : Nat) (frame : Json) : Option (Except AcpError Json) :=
  if frame.u64Field "id" ≠ some want then none
  else
    match frame.get "e" with
    | some e => some (.error (decodeErr e))
    | none => some (.ok ((frame.get "ok").getD .null))

/-- The answer of `next_update`. -/
def decodeUpdate (v : Json) : Except AcpError (Option AcpEvent) :=
  match v.get "event" with
  | some .null | none => .ok none
  | some event => (decodeEvent event).map some

def returned : Request → Except AcpError Json → Option AcpEvent
  | .nextUpdate _, .ok v => ((decodeUpdate v).toOption).join
  | _, _ => none

theorem readFrame?_replyFrame {id : Nat} (hid : id < 2 ^ 64) (want : Nat) (req : Request)
    (reply : Except AcpError Json) :
    readFrame? want (replyFrame (req.frame id) reply) = if id = want then some reply else none := by
  have hfield : (replyFrame (req.frame id) reply).u64Field "id" = some id := by
    have hget : (replyFrame (req.frame id) reply).get "id" = some (.num id) := by
      cases reply <;> cases req <;> rfl
    rw [Json.u64Field, hget, Option.bind_some, Json.asU64_natCast hid]
  unfold readFrame?
  rw [hfield]
  by_cases h : id = want
  · cases reply <;> simp [h, replyFrame, Json.get, decodeErr_encodeErr]
  · simp [h]

theorem eq_of_readFrame? {want : Nat} {req : Json} {reply answer : Except AcpError Json}
    (h : readFrame? want (replyFrame req reply) = some answer) : answer = reply := by
  unfold readFrame? at h
  split at h
  · cases h
  · cases reply with
    | ok result => exact (Option.some.inj h).symm
    | error e =>
        have he : Except.error (decodeErr (encodeErr e)) = answer := Option.some.inj h
        rw [← he, decodeErr_encodeErr]

theorem returned_updateReply (timeoutMs : Nat) (pulled : Except AcpError (Option AcpEvent)) :
    returned (.nextUpdate timeoutMs) (updateReply pulled) = pulled.toOption.join := by
  cases pulled with
  | error e => rfl
  | ok event =>
      cases event with
      | none => rfl
      | some event =>
          have hdecode : decodeUpdate (.obj [("event", encodeEvent event)]) =
              (decodeEvent (encodeEvent event)).map some := by
            cases event <;> rfl
          simp only [returned, updateReply, hdecode, decodeEvent_encodeEvent]
          rfl

/-! ### The relay -/

/-- A connection, with the client (`AcpConnection`) at its end as long as it is attached. -/
structure Connection where
  attached : Bool := true
  nextId : Nat := 0
  awaiting : Option (Nat × Request) := none
  toServer : List Json := []
  toClient : List Json := []

/-- The event that the client will return once it reads a frame. -/
def eventFor (awaiting : Option (Nat × Request)) (frame : Json) : Option AcpEvent := do
  let (id, req) ← awaiting
  returned req (← readFrame? id frame)

def Connection.transit (c : Connection) : List AcpEvent := c.toClient.filterMap (eventFor c.awaiting)

theorem Connection.transit_of_idle {c : Connection} (h : c.awaiting = none) : c.transit = [] := by
  rw [Connection.transit, h]
  exact List.filterMap_eq_nil_iff.mpr fun _ _ => rfl

/-- The resident with its bus, the connection that is served, and the events that calls of
`next_update` have returned, over all connections. -/
structure Relay where
  driven : Driven
  bus : List BusEvent := []
  connection : Option Connection := none
  received : List AcpEvent := []

inductive Act where
  | post (e : BusEvent)
  | hangUp
  | connect
  | request (req : Request)
  | serve
  | read
  | giveUp
  | detach
  | drop

namespace Relay

def transit (r : Relay) : List AcpEvent := (r.connection.map Connection.transit).getD []

/-- A receive takes what is on the bus; the bus ends with the connection to the bridge. -/
def receives (r : Relay) : Received :=
  match r.bus with
  | e :: _ => .event e
  | [] => if r.driven.host.isOpen then .timeout else .disconnected

def step? (bridge : Handshake) (r : Relay) : Act → Option Relay
  | .post e => some { r with bus := r.bus ++ [e] }
  | .hangUp => some { r with driven := { r.driven with host := { r.driven.host with isOpen := false } } }
  | .connect => do
      guard r.connection.isNone
      some { r with connection := some {} }
  | .request req => do
      let c ← r.connection
      guard (c.attached ∧ c.awaiting.isNone ∧ c.nextId + 1 < 2 ^ 64)
      let id := c.nextId + 1
      some { r with connection := some { c with
        nextId := id
        awaiting := some (id, req)
        toServer := c.toServer ++ [req.frame id] } }
  | .serve => do
      let c ← r.connection
      let req ← c.toServer.head?
      let (reply, driven) ← dispatchRequest? bridge r.receives r.driven req
      some { r with
        driven
        bus := if req.strField "m" = some "next_update" then r.bus.tail else r.bus
        connection := some { c with
          toServer := c.toServer.tail
          -- an answer to a client that is gone is lost
          toClient := if c.attached then c.toClient ++ [replyFrame req reply] else c.toClient } }
  | .read => do
      let c ← r.connection
      let (id, req) ← c.awaiting
      let frame ← c.toClient.head?
      match readFrame? id frame with
      | none => some { r with connection := some { c with toClient := c.toClient.tail } }
      | some result =>
          some { r with
            connection := some { c with awaiting := none, toClient := c.toClient.tail }
            received := r.received ++ (returned req result).toList }
  -- the deadline of a request ends the call, and the connection goes on
  | .giveUp => do
      let c ← r.connection
      some { r with connection := some { c with awaiting := none } }
  | .detach => do
      let c ← r.connection
      some { r with connection := some { c with attached := false, awaiting := none, toClient := [] } }
  | .drop => some { r with connection := none }

def run? (bridge : Handshake) (r : Relay) (acts : List Act) : Option Relay := acts.foldlM (step? bridge) r

def awaits (c : Connection) (req : Json) : Bool :=
  c.attached && c.awaiting.any fun (id, _) => req.u64Field "id" = some id

/-- The next event on the bus reaches a client if a frame is served now. -/
def relays (r : Relay) (c : Connection) (req : Json) : Bool :=
  r.bus.head?.all fun e =>
    e.event?.isNone || (awaits c req && !e.terminalTurn.any r.driven.host.strands)

/-- No client leaves an answer behind: `next_update` takes an event off the bus only while
its client waits, and a client goes on or goes away only when no event is on the way. -/
def keeps (r : Relay) : Act → Bool
  | .serve => r.connection.all fun c => c.toServer.head?.all fun req =>
      req.strField "m" != some "next_update" || r.relays c req
  | .giveUp | .detach | .drop => r.transit.isEmpty
  | _ => true

/-- The frames of a connection: the requests under way and their answers have different ids,
in order, and the request that the client waits for is the one that it sent. -/
structure Framed (c : Connection) (requests : List (Nat × Request))
    (replies : List ((Nat × Request) × Except AcpError Json)) : Prop where
  toServer : c.toServer = requests.map fun p => p.2.frame p.1
  toClient : c.toClient = replies.map fun p => replyFrame (p.1.2.frame p.1.1) p.2
  sorted : ((replies.map fun p => p.1.1) ++ requests.map Prod.fst).Pairwise (· < ·)
  bound : ∀ id ∈ (replies.map fun p => p.1.1) ++ requests.map Prod.fst, id ≤ c.nextId
  small : c.nextId < 2 ^ 64
  awaited : ∀ id req, c.awaiting = some (id, req) → ∀ p ∈ requests, p.1 = id → p.2 = req

/-- Every event that was consumed was returned, or is on the way to the call that waits. -/
structure Lossless (r : Relay) : Prop where
  carried : r.received ++ r.transit = consumed r.driven.log
  framed : ∀ c ∈ r.connection, ∃ requests replies, Framed c requests replies

variable {bridge : Handshake} {r r' : Relay} {c : Connection} {requests : List (Nat × Request)}
  {replies : List ((Nat × Request) × Except AcpError Json)}

namespace Framed

theorem reply_small (h : Framed c requests replies) {p : (Nat × Request) × Except AcpError Json}
    (hp : p ∈ replies) : p.1.1 < 2 ^ 64 :=
  Nat.lt_of_le_of_lt
    (h.bound _ (List.mem_append_left _ (List.mem_map.mpr ⟨p, hp, rfl⟩))) h.small

theorem eventFor_eq_none (h : Framed c requests replies) {awaiting : Option (Nat × Request)}
    {p : (Nat × Request) × Except AcpError Json} (hp : p ∈ replies)
    (hother : ∀ id req, awaiting = some (id, req) → p.1.1 ≠ id) :
    eventFor awaiting (replyFrame (p.1.2.frame p.1.1) p.2) = none := by
  cases hawaiting : awaiting with
  | none => rfl
  | some call =>
      obtain ⟨id, req⟩ := call
      have hread := readFrame?_replyFrame (h.reply_small hp) id p.1.2 p.2
      rw [if_neg (hother id req hawaiting)] at hread
      simp [eventFor, hread]

theorem transit_request (h : Framed c requests replies) (req : Request) :
    Connection.transit { c with awaiting := some (c.nextId + 1, req) } = [] := by
  rw [Connection.transit, h.toClient, List.filterMap_eq_nil_iff]
  intro frame hframe
  obtain ⟨p, hp, rfl⟩ := List.mem_map.mp hframe
  refine h.eventFor_eq_none hp fun id req' heq => ?_
  cases heq
  have := h.bound _ (List.mem_append_left _ (List.mem_map.mpr ⟨p, hp, rfl⟩))
  omega

theorem request (h : Framed c requests replies) (hsmall : c.nextId + 1 < 2 ^ 64) (req : Request) :
    Framed { c with
        nextId := c.nextId + 1
        awaiting := some (c.nextId + 1, req)
        toServer := c.toServer ++ [req.frame (c.nextId + 1)] }
      (requests ++ [(c.nextId + 1, req)]) replies := by
  refine ⟨by simp [h.toServer], h.toClient, ?_, ?_, hsmall, ?_⟩
  · rw [List.map_append, ← List.append_assoc]
    refine List.pairwise_append.mpr ⟨h.sorted, by simp, fun id hid id' hid' => ?_⟩
    cases List.mem_singleton.mp hid'
    exact Nat.lt_succ_of_le (h.bound id hid)
  · intro id hid
    rw [List.map_append, ← List.append_assoc] at hid
    rcases List.mem_append.mp hid with hid | hid
    · exact Nat.le_succ_of_le (h.bound id hid)
    · cases List.mem_singleton.mp hid
      exact Nat.le_refl _
  · rintro id req' ⟨⟩ p hp heq
    rcases List.mem_append.mp hp with hp | hp
    · have := h.bound p.1 (List.mem_append_right _ (List.mem_map_of_mem hp))
      omega
    · cases List.mem_singleton.mp hp
      rfl

theorem eventFor_head {p : Nat × Request} (h : Framed c (p :: requests) replies)
    (reply : Except AcpError Json) :
    (if c.attached then eventFor c.awaiting (replyFrame (p.2.frame p.1) reply) else none) =
      if awaits c (p.2.frame p.1) then returned p.2 reply else none := by
  have hsmall : p.1 < 2 ^ 64 :=
    Nat.lt_of_le_of_lt (h.bound _ (List.mem_append_right _ List.mem_cons_self)) h.small
  have hfield : (p.2.frame p.1).u64Field "id" = some p.1 := by
    have hget : (p.2.frame p.1).get "id" = some (.num p.1) := by cases p.2 <;> rfl
    rw [Json.u64Field, hget, Option.bind_some, Json.asU64_natCast hsmall]
  cases hawaiting : c.awaiting with
  | none => simp [eventFor, awaits, hawaiting]
  | some call =>
      obtain ⟨id, req⟩ := call
      have hread := readFrame?_replyFrame hsmall id p.2 reply
      by_cases hid : p.1 = id
      · cases h.awaited id req hawaiting p List.mem_cons_self hid
        subst hid
        rw [if_pos rfl] at hread
        simp [eventFor, awaits, hawaiting, hread, hfield]
      · rw [if_neg hid] at hread
        simp [eventFor, awaits, hawaiting, hread, hfield, hid]

theorem serve {p : Nat × Request} (h : Framed c (p :: requests) replies) (reply : Except AcpError Json)
    (attached : Bool) :
    Framed { c with
        toServer := c.toServer.tail
        toClient := if attached then c.toClient ++ [replyFrame (p.2.frame p.1) reply] else c.toClient }
      requests (if attached then replies ++ [(p, reply)] else replies) := by
  have htail : c.toServer.tail = requests.map fun p => p.2.frame p.1 := by
    rw [h.toServer]
    rfl
  have hawaited : ∀ id req, c.awaiting = some (id, req) → ∀ p ∈ requests, p.1 = id → p.2 = req :=
    fun id req heq p hp => h.awaited id req heq p (List.mem_cons_of_mem _ hp)
  cases attached with
  | true =>
      have hids : ((replies ++ [(p, reply)]).map fun p => p.1.1) ++ requests.map Prod.fst =
          (replies.map fun p => p.1.1) ++ (p :: requests).map Prod.fst := by
        simp
      exact ⟨htail, by simp [h.toClient], hids ▸ h.sorted, hids ▸ h.bound, h.small, hawaited⟩
  | false =>
      have hsub : List.Sublist ((replies.map fun p => p.1.1) ++ requests.map Prod.fst)
          ((replies.map fun p => p.1.1) ++ (p :: requests).map Prod.fst) :=
        (List.Sublist.refl _).append ((List.sublist_cons_self p requests).map Prod.fst)
      exact ⟨htail, h.toClient, h.sorted.sublist hsub, fun id hid => h.bound id (hsub.subset hid),
        h.small, hawaited⟩

theorem read {p : (Nat × Request) × Except AcpError Json} (h : Framed c requests (p :: replies))
    {awaiting : Option (Nat × Request)} (hawaiting : ∀ call, awaiting = some call → c.awaiting = some call) :
    Framed { c with awaiting, toClient := c.toClient.tail } requests replies := by
  refine ⟨h.toServer, by simp [h.toClient], ?_, ?_, h.small, ?_⟩
  · exact (List.pairwise_cons.mp h.sorted).2
  · exact fun id hid => h.bound id (List.mem_cons_of_mem _ hid)
  · exact fun id req heq => h.awaited id req (hawaiting _ heq)

theorem transit_read {p : (Nat × Request) × Except AcpError Json} (h : Framed c requests (p :: replies))
    {req : Request} (hawaiting : c.awaiting = some (p.1.1, req)) :
    c.transit = (returned req p.2).toList := by
  have hrest : (replies.map fun p => replyFrame (p.1.2.frame p.1.1) p.2).filterMap
      (eventFor c.awaiting) = [] := by
    rw [List.filterMap_eq_nil_iff]
    intro frame hframe
    obtain ⟨p', hp', rfl⟩ := List.mem_map.mp hframe
    refine h.eventFor_eq_none (List.mem_cons_of_mem _ hp') fun id req' heq => ?_
    rw [hawaiting] at heq
    cases heq
    have hlt := (List.pairwise_cons.mp h.sorted).1 p'.1.1
      (List.mem_append_left _ (List.mem_map.mpr ⟨p', hp', rfl⟩))
    exact Nat.ne_of_gt hlt
  have hhead : eventFor c.awaiting (replyFrame (p.1.2.frame p.1.1) p.2) = returned req p.2 := by
    have hread := readFrame?_replyFrame (h.reply_small List.mem_cons_self) p.1.1 p.1.2 p.2
    rw [if_pos rfl] at hread
    simp [hawaiting, eventFor, hread]
  rw [Connection.transit, h.toClient, List.map_cons, List.filterMap_cons, hrest, hhead]
  cases returned req p.2 <;> rfl

end Framed

namespace Lossless

theorem fronting (s : Driven) (hlog : s.log = []) (bus : List BusEvent) :
    Lossless { driven := s, bus } where
  carried := by
    rw [hlog]
    rfl
  framed := by rintro c ⟨⟩

theorem replace (h : Lossless r) (hquiet : r.transit = []) {connection : Option Connection}
    (hnew : ((connection.map Connection.transit).getD []) = [])
    (hframed : ∀ c ∈ connection, ∃ requests replies, Framed c requests replies) :
    Lossless { r with connection } where
  carried := by
    have hcarried := h.carried
    rw [hquiet] at hcarried
    rw [transit, hnew]
    exact hcarried
  framed := hframed

theorem transit_eq (hc : r.connection = some c) : r.transit = c.transit := by
  rw [transit, hc]
  rfl

theorem connect (h : Lossless r) (hnone : r.connection = none) :
    Lossless { r with connection := some {} } := by
  refine h.replace (by rw [transit, hnone]; rfl) rfl ?_
  rintro c ⟨⟩
  exact ⟨[], [], rfl, rfl, by simp, by simp, by decide, by simp⟩

theorem request (h : Lossless r) (hc : r.connection = some c) (hnone : c.awaiting = none)
    (hsmall : c.nextId + 1 < 2 ^ 64) (req : Request) :
    Lossless { r with connection := some { c with
      nextId := c.nextId + 1
      awaiting := some (c.nextId + 1, req)
      toServer := c.toServer ++ [req.frame (c.nextId + 1)] } } := by
  obtain ⟨requests, replies, hframed⟩ := h.framed c hc
  refine h.replace ?_ (hframed.transit_request req) ?_
  · rw [transit_eq hc, Connection.transit_of_idle hnone]
  · rintro c' ⟨⟩
    exact ⟨_, replies, hframed.request hsmall req⟩

theorem read_stale {p : (Nat × Request) × Except AcpError Json} (h : Lossless r)
    (hc : r.connection = some c) (hframed : Framed c requests (p :: replies))
    (hother : ∀ id req, c.awaiting = some (id, req) → p.1.1 ≠ id) :
    Lossless { r with connection := some { c with toClient := c.toClient.tail } } where
  carried := by
    have hnone := hframed.eventFor_eq_none List.mem_cons_self hother
    rw [← h.carried, transit_eq hc, transit_eq rfl, Connection.transit, Connection.transit,
      hframed.toClient, List.map_cons, List.filterMap_cons, hnone]
    rfl
  framed := by
    rintro c' ⟨⟩
    exact ⟨requests, replies, hframed.read fun _ heq => heq⟩

theorem read_answer {p : (Nat × Request) × Except AcpError Json} (h : Lossless r)
    (hc : r.connection = some c) (hframed : Framed c requests (p :: replies)) {req : Request}
    (hawaiting : c.awaiting = some (p.1.1, req)) :
    Lossless { r with
      connection := some { c with awaiting := none, toClient := c.toClient.tail }
      received := r.received ++ (returned req p.2).toList } where
  carried := by
    rw [← h.carried, transit_eq hc, hframed.transit_read hawaiting, transit_eq rfl,
      Connection.transit_of_idle rfl, List.append_nil]
  framed := by
    rintro c' ⟨⟩
    exact ⟨requests, replies, hframed.read fun _ heq => by cases heq⟩

theorem read (h : Lossless r) (hstep : r.step? bridge .read = some r') : Lossless r' := by
  obtain ⟨c, hc, hstep⟩ := Option.bind_eq_some_iff.mp hstep
  obtain ⟨⟨id, req⟩, hawaiting, hstep⟩ := Option.bind_eq_some_iff.mp hstep
  obtain ⟨frame, hframe, hstep⟩ := Option.bind_eq_some_iff.mp hstep
  obtain ⟨requests, replies, hframed⟩ := h.framed c hc
  rw [hframed.toClient] at hframe
  cases replies with
  | nil => cases hframe
  | cons p replies =>
      cases hframe
      have hread := readFrame?_replyFrame (hframed.reply_small List.mem_cons_self) id p.1.2 p.2
      by_cases hid : p.1.1 = id
      · subst hid
        rw [if_pos rfl] at hread
        simp only [hread, Option.some.injEq] at hstep
        subst hstep
        exact h.read_answer hc hframed hawaiting
      · rw [if_neg hid] at hread
        simp only [hread, Option.some.injEq] at hstep
        subst hstep
        refine h.read_stale hc hframed fun id' req' heq => ?_
        rw [hawaiting] at heq
        cases heq
        exact hid

theorem serve {p : Nat × Request} (h : Lossless r) (hc : r.connection = some c)
    (hframed : Framed c (p :: requests) replies) {reply : Except AcpError Json} {driven : Driven}
    {bus : List BusEvent} {event : Option AcpEvent}
    (hconsumed : consumed driven.log = consumed r.driven.log ++ event.toList)
    (hreply : (if c.attached then eventFor c.awaiting (replyFrame (p.2.frame p.1) reply) else none) = event) :
    Lossless { r with
      driven
      bus
      connection := some { c with
        toServer := c.toServer.tail
        toClient := if c.attached then c.toClient ++ [replyFrame (p.2.frame p.1) reply] else c.toClient } } where
  carried := by
    rw [hconsumed, ← h.carried, List.append_assoc, transit_eq hc, transit_eq rfl, Connection.transit,
      Connection.transit, ← hreply]
    cases c.attached with
    | false => simp
    | true =>
        cases hevent : eventFor c.awaiting (replyFrame (p.2.frame p.1) reply) <;> simp [hevent]
  framed := by
    rintro c' ⟨⟩
    exact ⟨requests, _, hframed.serve reply c.attached⟩

theorem pulled {req : Json} (hrelays : r.relays c req = true) :
    (if awaits c req then (r.driven.host.nextUpdate r.receives).1.toOption.join else none) =
      (Call.nextUpdate r.receives).event? := by
  unfold receives
  cases hbus : r.bus with
  | nil =>
      cases r.driven.host.isOpen <;> simp [AcpHost.nextUpdate, Call.event?, Except.toOption]
  | cons e rest =>
      simp only [relays, hbus, List.head?_cons, Option.all_some, Bool.or_eq_true, Bool.and_eq_true,
        Option.isNone_iff_eq_none, Bool.not_eq_true', Option.any_eq_false] at hrelays
      rcases hrelays with hnone | ⟨hawaits, hstrands⟩
      · cases e with
        | closed why => simp [AcpHost.nextUpdate, Call.event?, BusEvent.event?, Except.toOption]
        | _ => cases hnone
      · cases hevent : e.event? with
        | none =>
            cases e with
            | closed why => simp [AcpHost.nextUpdate, Call.event?, BusEvent.event?, Except.toOption]
            | _ => cases hevent
        | some event =>
            have hpulled := AcpHost.nextUpdate_of_event hevent fun turn hturn => by
              simpa using hstrands turn hturn
            rw [if_pos hawaits, hpulled]
            exact hevent.symm

theorem serve_step (h : Lossless r) (hkeeps : r.keeps .serve = true)
    (hstep : r.step? bridge .serve = some r') : Lossless r' := by
  obtain ⟨c, hc, hstep⟩ := Option.bind_eq_some_iff.mp hstep
  obtain ⟨req, hreq, hstep⟩ := Option.bind_eq_some_iff.mp hstep
  obtain ⟨⟨reply, driven⟩, hdispatch, hstep⟩ := Option.bind_eq_some_iff.mp hstep
  cases hstep
  obtain ⟨requests, replies, hframed⟩ := h.framed c hc
  have hhead := hreq
  rw [hframed.toServer] at hreq
  cases requests with
  | nil => cases hreq
  | cons p requests =>
      obtain ⟨id, q⟩ := p
      cases hreq
      -- what the waiting call returns is what the request consumed
      suffices hreturned : consumed driven.log = consumed r.driven.log ++
          (if awaits c (q.frame id) then returned q reply else none).toList from
        h.serve hc hframed hreturned (hframed.eventFor_head reply)
      cases q with
      | prompt text sender =>
          obtain ⟨hcall, -⟩ := dispatchRequest?_prompt bridge r.receives r.driven id text sender hdispatch
          rw [consumed_step? hcall]
          simp [returned, Call.event?]
      | cancel =>
          obtain ⟨hcall, -⟩ := dispatchRequest?_cancel bridge r.receives r.driven id hdispatch
          rw [consumed_step? hcall]
          simp [returned, Call.event?]
      | status =>
          cases hdispatch
          simp [returned]
      | nextUpdate timeoutMs =>
          obtain ⟨hcall, rfl⟩ := dispatchRequest?_nextUpdate bridge r.receives r.driven id timeoutMs hdispatch
          have hrelays : r.relays c ((Request.nextUpdate timeoutMs).frame id) = true := by
            have hmethod : ((Request.nextUpdate timeoutMs).frame id).strField "m" = some "next_update" := rfl
            simpa [keeps, hc, hhead, hmethod] using hkeeps
          rw [consumed_step? hcall, returned_updateReply, pulled hrelays]

theorem step? (h : Lossless r) {act : Act} (hkeeps : r.keeps act = true)
    (hstep : r.step? bridge act = some r') : Lossless r' := by
  cases act with
  | post e =>
      cases hstep
      exact ⟨h.carried, h.framed⟩
  | hangUp =>
      cases hstep
      exact ⟨h.carried, h.framed⟩
  | connect =>
      obtain ⟨hnone, hstep⟩ := guard_bind_eq_some.mp hstep
      cases hstep
      exact h.connect (Option.isNone_iff_eq_none.mp hnone)
  | request req =>
      obtain ⟨c, hc, hstep⟩ := Option.bind_eq_some_iff.mp hstep
      obtain ⟨⟨-, hnone, hsmall⟩, hstep⟩ := guard_bind_eq_some.mp hstep
      cases hstep
      exact h.request hc (Option.isNone_iff_eq_none.mp hnone) hsmall req
  | serve => exact h.serve_step hkeeps hstep
  | read => exact h.read hstep
  | giveUp =>
      obtain ⟨c, hc, hstep⟩ := Option.bind_eq_some_iff.mp hstep
      cases hstep
      obtain ⟨requests, replies, hframed⟩ := h.framed c hc
      refine h.replace (List.isEmpty_iff.mp hkeeps) (Connection.transit_of_idle rfl) ?_
      rintro c' ⟨⟩
      exact ⟨requests, replies, { hframed with awaited := by rintro id req ⟨⟩ }⟩
  | detach =>
      obtain ⟨c, hc, hstep⟩ := Option.bind_eq_some_iff.mp hstep
      cases hstep
      obtain ⟨requests, replies, hframed⟩ := h.framed c hc
      refine h.replace (List.isEmpty_iff.mp hkeeps) (Connection.transit_of_idle rfl) ?_
      rintro c' ⟨⟩
      have hids := List.sublist_append_right (replies.map fun p => p.1.1) (requests.map Prod.fst)
      exact ⟨requests, [], hframed.toServer, rfl, hframed.sorted.sublist hids,
        fun id hid => hframed.bound id (hids.subset hid), hframed.small, by rintro id req ⟨⟩⟩
  | drop =>
      cases hstep
      exact h.replace (List.isEmpty_iff.mp hkeeps) rfl (by rintro c ⟨⟩)

end Lossless

def Rests (r : Relay) : Prop := ∀ c ∈ r.connection, c.awaiting = none

theorem Rests.transit (h : r.Rests) : r.transit = [] := by
  unfold Relay.transit
  cases hc : r.connection with
  | none => rfl
  | some c => exact Connection.transit_of_idle (h c hc)

def twoClients : List Act :=
  [.post (.update "s" "text" .null), .connect, .request (.nextUpdate 0), .serve, .read, .detach, .drop,
    .post (.terminal "s" "s#t0" .endTurn), .connect, .request .status, .serve, .read,
    .request (.nextUpdate 0), .serve, .read]

def goneClient : List Act :=
  [.post (.terminal "s" "s#t0" .endTurn), .connect, .request (.nextUpdate 0), .serve, .detach, .drop,
    .connect, .request (.nextUpdate 0), .serve, .read]

end Relay

end QuorumDispatch.Acp
