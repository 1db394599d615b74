import QuorumDispatch.Relay.Delivery

/-!
Networks of relay servers. A reply that no sender waits for is posted as a message of its
own to the session that the message came from, and arrives there with a prefix; a reply to
a message with that prefix is not posted.

What is known of a message is its record in the map of the server, which is bounded and
lost with the server, and its inbox file, which may be missing.
-/

namespace QuorumDispatch.Relay

open Lib

/-! ### One server -/

/-- The call has called `push_back`. -/
def CallPhase.pushes : CallPhase → Bool
  | .pushing _ => true
  | .clearing outcome | .returned outcome =>
      match outcome with
      | .pushedBack | .notDelivered (.pushBack _) => true
      | _ => false
  | _ => false

def CallPhase.origin : CallPhase → Option OriginRec
  | .looking _ inMem => inMem
  | .verifying origin => origin
  | _ => none

namespace Server

/-- Only messages with the property are taken for such that are no replies. -/
structure Sound (Genuine : MessageId → Prop) (s : Server) : Prop where
  recorded : ∀ e ∈ s.relay.origins, e.2.isReply = false → Genuine e.1
  origin : ∀ k c origin, s.calls[k]? = some c → (s.callPhase k).origin = some origin →
    origin.isReply = false → Genuine c.id
  pushes : ∀ k c, s.calls[k]? = some c → (s.callPhase k).pushes = true → Genuine c.id

variable {s s' : Server} {Genuine : MessageId → Prop}

theorem Sound.mono {Genuine' : MessageId → Prop} (h : s.Sound Genuine)
    (hmono : ∀ id, Genuine id → Genuine' id) : s.Sound Genuine' where
  recorded e he hreply := hmono _ (h.recorded e he hreply)
  origin k c origin hc ho hreply := hmono _ (h.origin k c origin hc ho hreply)
  pushes k c hc hk := hmono _ (h.pushes k c hc hk)

structure Silent (s s' : Server) : Prop where
  own : s'.own = s.own
  origins : s'.relay.origins = s.relay.origins
  seq : s'.relay.seq = s.relay.seq

theorem Sound.setCall (h : s.Sound Genuine) {k : Nat} {phase : CallPhase}
    (horigin : ∀ c origin, s.calls[k]? = some c → phase.origin = some origin →
      origin.isReply = false → Genuine c.id)
    (hpushes : ∀ c, s.calls[k]? = some c → phase.pushes = true → Genuine c.id) :
    (s.setCall k phase).Sound Genuine where
  recorded := h.recorded
  origin j c origin hc ho hreply := by
    rw [setCall_callPhase] at ho
    split_ifs at ho with hjk
    · exact horigin c origin (hjk ▸ hc) ho hreply
    · exact h.origin j c origin hc ho hreply
  pushes j c hc hj := by
    rw [setCall_callPhase] at hj
    split_ifs at hj with hjk
    · exact hpushes c (hjk ▸ hc) hj
    · exact h.pushes j c hc hj

theorem Sound.silent (h : s.Sound Genuine) (hsilent : s.Silent s') (hcalls : s'.calls = s.calls)
    (hphase : s'.callPhase = s.callPhase) : s'.Sound Genuine where
  recorded := hsilent.origins ▸ h.recorded
  origin := hcalls ▸ hphase ▸ h.origin
  pushes := hcalls ▸ hphase ▸ h.pushes

theorem act_origin {origin : Option OriginRec} {decision : DeliveryDecision}
    {o : OriginRec} (h : (act origin decision).origin = some o) : origin = some o := by
  cases decision <;> first | exact h | cases h

theorem isReply_of_act_pushes {waiterPresent : Bool} {origin : Option OriginRec} {own : SessionId}
    (h : (act origin (decideDelivery waiterPresent origin own)).pushes = true) :
    ∃ o, origin = some o ∧ o.isReply = false := by
  cases hdecision : decideDelivery waiterPresent origin own with
  | pushBack dest =>
      obtain ⟨o, ho, hreply, -⟩ := isReply_of_pushBack hdecision
      exact ⟨o, ho, hreply⟩
  | _ =>
      rw [hdecision] at h
      cases h

theorem Sound.act (h : s.Sound Genuine) {k : Nat} {origin : Option OriginRec} {own : SessionId}
    (waiterPresent : Bool)
    (horigin : ∀ c o, s.calls[k]? = some c → origin = some o → o.isReply = false → Genuine c.id) :
    (s.setCall k (act origin (decideDelivery waiterPresent origin own))).Sound Genuine := by
  refine h.setCall (fun c o hc ho => horigin c o hc (act_origin ho)) fun c hc hpushes => ?_
  obtain ⟨o, ho, hreply⟩ := isReply_of_act_pushes hpushes
  exact horigin c o hc ho hreply

theorem Sound.enterSpan (h : s.Sound Genuine) {k : Nat} {c : Call} (hc : s.calls[k]? = some c)
    (now : Nat) : (s.enterSpan k c now).Sound Genuine ∧ s.Silent (s.enterSpan k c now) := by
  have hsilent : s.Silent (s.enterSpan k c now) := by
    unfold Server.enterSpan
    dsimp only [Server.setCall]
    split_ifs <;> exact ⟨rfl, rfl, rfl⟩
  refine ⟨⟨hsilent.origins ▸ h.recorded, fun j cj origin hcj ho hreply => ?_,
    fun j cj hcj hj => ?_⟩, hsilent⟩
  · by_cases hjk : j = k
    · subst hjk
      cases hcj.symm.trans hc
      have hmem : (c.id, origin) ∈ s.relay.origins := by
        unfold Server.enterSpan at ho
        rw [setCall_callPhase, if_pos rfl] at ho
        exact RelayState.mem_of_originFor ho
      exact h.recorded _ hmem hreply
    · rw [enterSpan_callPhase s hjk] at ho
      exact h.origin j cj origin hcj ho hreply
  · by_cases hjk : j = k
    · subst hjk
      unfold Server.enterSpan at hj
      rw [setCall_callPhase, if_pos rfl] at hj
      cases hj
    · rw [enterSpan_callPhase s hjk] at hj
      exact h.pushes j cj hcj hj

theorem peekResolved_origins (r : RelayState) (id : MessageId) (now : Nat) :
    (r.peekResolved id now).2.origins = r.origins ∧ (r.peekResolved id now).2.seq = r.seq := by
  unfold RelayState.peekResolved
  cases r.resolved id with
  | none => exact ⟨rfl, rfl⟩
  | some entry =>
      dsimp only
      split_ifs <;> exact ⟨rfl, rfl⟩

theorem offerAck_origins (r : RelayState) (id : MessageId) (written : Bool) :
    (r.offerAck id written).origins = r.origins ∧ (r.offerAck id written).seq = r.seq := by
  unfold RelayState.offerAck
  split_ifs <;> exact ⟨rfl, rfl⟩

theorem silent_setPoll {relay : RelayState} {p : Nat} {phase : PollPhase}
    (h : relay.origins = s.relay.origins ∧ relay.seq = s.relay.seq) :
    s.Silent ((s.setRelay relay).setPoll p phase) := ⟨rfl, h.1, h.2⟩

theorem silent_setCall {relay : RelayState} {k : Nat} {phase : CallPhase}
    (h : relay.origins = s.relay.origins ∧ relay.seq = s.relay.seq) :
    s.Silent ((s.setRelay relay).setCall k phase) := ⟨rfl, h.1, h.2⟩

theorem Sound.setPoll (h : s.Sound Genuine) {relay : RelayState} {p : Nat} {phase : PollPhase}
    (hrelay : relay.origins = s.relay.origins ∧ relay.seq = s.relay.seq) :
    ((s.setRelay relay).setPoll p phase).Sound Genuine ∧
      s.Silent ((s.setRelay relay).setPoll p phase) :=
  ⟨h.silent (silent_setPoll hrelay) rfl rfl, silent_setPoll hrelay⟩

theorem Sound.setCall_blank (h : s.Sound Genuine) {relay : RelayState} {k : Nat} {phase : CallPhase}
    (hrelay : relay.origins = s.relay.origins ∧ relay.seq = s.relay.seq)
    (horigin : phase.origin = none) (hpushes : phase.pushes = true → (s.callPhase k).pushes = true) :
    ((s.setRelay relay).setCall k phase).Sound Genuine ∧
      s.Silent ((s.setRelay relay).setCall k phase) := by
  have hkept : (s.setRelay relay).Sound Genuine :=
    h.silent ⟨rfl, hrelay.1, hrelay.2⟩ rfl rfl
  refine ⟨hkept.setCall (fun c origin _ ho => ?_) fun c hc hphase => ?_, silent_setCall hrelay⟩
  · rw [horigin] at ho
    cases ho
  · exact h.pushes k c hc (hpushes hphase)

/-- A verify window ends without a written text: the decision is made once more. -/
theorem Sound.redecide (h : s.Sound Genuine) {k : Nat} {origin : Option OriginRec}
    (hphase : s.callPhase k = .verifying origin) {relay : RelayState}
    (hrelay : relay.origins = s.relay.origins ∧ relay.seq = s.relay.seq) :
    ((s.setRelay relay).setCall k (s.redecide origin)).Sound Genuine ∧
      s.Silent ((s.setRelay relay).setCall k (s.redecide origin)) := by
  have hkept : (s.setRelay relay).Sound Genuine :=
    h.silent ⟨rfl, hrelay.1, hrelay.2⟩ rfl rfl
  refine ⟨hkept.act false fun c o hc ho => h.origin k c o hc ?_, silent_setCall hrelay⟩
  rw [hphase, ho]
  rfl

def Step.isLocal : Step → Bool
  | .receive _ _ _ | .lookup _ _ => false
  | .push _ ok => !ok
  | _ => true

theorem Sound.lookup? (h : s.Sound Genuine) {k : Nat} {data : Option InboxRecord}
    (hdata : ∀ c o, s.calls[k]? = some c → originFromInbox data = some o → o.isReply = false →
      Genuine c.id) (hstep : s.lookup? k data = some s') : s'.Sound Genuine ∧ s.Silent s' := by
  unfold Server.lookup? at hstep
  split at hstep
  next waiterPresent inMem hphase =>
    cases hstep
    refine ⟨h.act waiterPresent fun c o hc ho hreply => ?_, ⟨rfl, rfl, rfl⟩⟩
    cases inMem with
    | some origin =>
        cases ho
        exact h.origin k c o hc (by rw [hphase]; rfl) hreply
    | none => exact hdata c o hc ho hreply
  next => cases hstep

theorem Sound.push? (h : s.Sound Genuine) {k : Nat} {ok : Bool}
    (hstep : s.push? k ok = some s') : s'.Sound Genuine ∧ s.Silent s' := by
  obtain ⟨c, -, hstep⟩ := Option.bind_eq_some_iff.mp hstep
  split at hstep
  next dest hphase =>
    have hpushes : (s.callPhase k).pushes = true := by rw [hphase]; rfl
    split_ifs at hstep <;> cases hstep
    · have hposted : Sound Genuine { s with posts := s.posts ++
          [{ call := k, dest, text := pushedText c.id c.text }] } := h.silent ⟨rfl, rfl, rfl⟩ rfl rfl
      exact ⟨hposted.setCall nofun fun c hc _ => h.pushes k c hc hpushes, ⟨rfl, rfl, rfl⟩⟩
    · exact h.setCall_blank ⟨rfl, rfl⟩ rfl fun _ => hpushes
  next => cases hstep

theorem Sound.step? {step : Step} (h : s.Sound Genuine) (hlocal : step.isLocal = true)
    (hstep : s.step? step = some s') : s'.Sound Genuine ∧ s.Silent s' := by
  cases step with
  | receive | lookup => cases hlocal
  | deliver c =>
      cases hstep
      refine ⟨⟨h.recorded, fun k ck origin hck ho hreply => ?_, fun k ck hck hk => ?_⟩,
        ⟨rfl, rfl, rfl⟩⟩
      · rw [setCall_callPhase] at ho
        split_ifs at ho with hlast
        · cases ho
        · exact h.origin k ck origin (getElem?_of_snoc hck hlast) ho hreply
      · rw [setCall_callPhase] at hk
        split_ifs at hk with hlast
        · cases hk
        · exact h.pushes k ck (getElem?_of_snoc hck hlast) hk
  | enter k now =>
      obtain ⟨c, hc, hstep⟩ := Option.bind_eq_some_iff.mp hstep
      obtain ⟨-, hstep⟩ := guard_bind_eq_some.mp hstep
      cases hstep
      split_ifs
      · exact h.setCall_blank ⟨rfl, rfl⟩ rfl nofun
      · exact h.enterSpan hc now
  | resume k now =>
      obtain ⟨c, hc, hstep⟩ := Option.bind_eq_some_iff.mp hstep
      obtain ⟨-, hstep⟩ := guard_bind_eq_some.mp hstep
      cases hstep
      exact h.enterSpan hc now
  | expire k now =>
      obtain ⟨c, hc, hstep⟩ := Option.bind_eq_some_iff.mp hstep
      obtain ⟨-, hstep⟩ := guard_bind_eq_some.mp hstep
      cases hstep
      exact h.enterSpan hc now
  | takeAck k =>
      obtain ⟨c, -, hstep⟩ := Option.bind_eq_some_iff.mp hstep
      split at hstep
      next hphase htake =>
        obtain ⟨-, rfl⟩ := Prod.mk.inj htake
        split_ifs at hstep <;> cases hstep
        · exact h.setCall_blank ⟨rfl, rfl⟩ rfl nofun
        · exact h.redecide hphase ⟨rfl, rfl⟩
      next => cases hstep
  | ackExpire k =>
      obtain ⟨c, -, hstep⟩ := Option.bind_eq_some_iff.mp hstep
      split at hstep
      next hphase htake =>
        obtain ⟨-, rfl⟩ := Prod.mk.inj htake
        cases hstep
        exact h.redecide hphase ⟨rfl, rfl⟩
      next => cases hstep
  | push k ok => exact h.push? hstep
  | finish k =>
      simp only [Server.step?, Server.finish?] at hstep
      split at hstep
      next outcome hphase =>
        cases hstep
        refine h.setCall_blank ⟨rfl, rfl⟩ rfl fun hpushes => ?_
        rw [hphase]
        exact hpushes
      next => cases hstep
  | get id drained now =>
      cases hstep
      have hpeek := peekResolved_origins s.relay id now
      have hpolled : ∀ {relay : RelayState} {phase : PollPhase},
          relay.origins = s.relay.origins ∧ relay.seq = s.relay.seq →
          (({ s with polls := s.polls ++ [id] }.setRelay relay).setPoll s.polls.length
            phase).Sound Genuine ∧ s.Silent (({ s with polls := s.polls ++ [id] }.setRelay
              relay).setPoll s.polls.length phase) :=
        fun hrelay => ⟨h.silent ⟨rfl, hrelay.1, hrelay.2⟩ rfl rfl, ⟨rfl, hrelay.1, hrelay.2⟩⟩
      unfold Server.get
      dsimp only
      split
      next heq => exact hpolled (by rwa [heq] at hpeek)
      next heq =>
        rw [heq] at hpeek
        split_ifs <;> exact hpolled hpeek
  | wake p now =>
      obtain ⟨id, -, hstep⟩ := Option.bind_eq_some_iff.mp hstep
      obtain ⟨-, hstep⟩ := guard_bind_eq_some.mp hstep
      have hpeek := peekResolved_origins s.relay id now
      split at hstep <;> (rename_i heq; rw [heq] at hpeek; cases hstep; exact h.setPoll hpeek)
  | probe p answers =>
      simp only [Server.step?, Server.probe?] at hstep
      split at hstep
      · cases hstep
        exact h.setPoll ⟨rfl, rfl⟩
      · cases hstep
        exact h.setPoll ⟨rfl, rfl⟩
      · cases hstep
  | recheck p drained now =>
      obtain ⟨id, -, hstep⟩ := Option.bind_eq_some_iff.mp hstep
      have hpeek := peekResolved_origins s.relay id now
      split at hstep
      next heq =>
        rw [heq] at hpeek
        cases hstep
        exact h.setPoll hpeek
      next heq =>
        rw [heq] at hpeek
        split_ifs at hstep <;> cases hstep <;> exact h.setPoll hpeek
      next heq =>
        rw [heq] at hpeek
        cases hstep
        obtain ⟨horigins, hseq⟩ := offerAck_origins (RelayState.removeWaiter _ id) id false
        exact h.setPoll ⟨horigins.trans hpeek.1, hseq.trans hpeek.2⟩
      next => cases hstep
  | write p ok =>
      simp only [Server.step?, Server.write?] at hstep
      split at hstep
      · cases hstep
        exact h.setPoll ⟨rfl, rfl⟩
      · cases hstep
  | report p =>
      obtain ⟨id, -, hstep⟩ := Option.bind_eq_some_iff.mp hstep
      split at hstep
      · cases hstep
        exact h.setPoll (offerAck_origins ..)
      · cases hstep
  | hangUp p =>
      cases hstep
      exact ⟨h.silent ⟨rfl, rfl, rfl⟩ rfl rfl, ⟨rfl, rfl, rfl⟩⟩

theorem Sound.receive (h : s.Sound Genuine) {text : Text} {fromSession : SessionId} {now : Nat}
    (hnew : isReplyText text = false → Genuine (s.relay.mintMessageId now).1) :
    (s.receive text fromSession now).Sound Genuine := by
  obtain ⟨origins, originsOrder, heq⟩ := s.receive_eq text fromSession now
  refine ⟨fun e he hreply => ?_, heq ▸ h.origin, heq ▸ h.pushes⟩
  obtain rfl | he := RelayState.mem_of_mem_recordOrigin he
  · exact hnew hreply
  · exact h.recorded e he hreply

end Server

/-! ### Networks -/

structure Process where
  server : Server
  inboxDir : Nat

/-- A message as it was received, with the directory of its inbox file. -/
structure Received where
  inboxDir : Nat
  id : MessageId
  record : InboxRecord
deriving DecidableEq, Repr

/-- A message that a call of `push_back` posted. -/
structure AutoPost where
  answered : MessageId
  posted : MessageId
deriving DecidableEq, Repr

/-- A server that restarts is a new process. `minted` has the process that minted an id. -/
structure Network where
  procs : List Process := []
  inbox : Nat × MessageId → Option InboxRecord := fun _ => none
  received : List Received := []
  minted : List (Nat × MessageId) := []
  posts : List AutoPost := []

namespace Network

/-- `store` writes the inbox file of a message, after its receipt or to acknowledge it;
`unlink` is the removal of a file by a call, by the collector or by anyone. A post is
`answered` if the response reaches the sender. -/
inductive Step where
  | boot (own : SessionId) (inboxDir seed : Nat)
  | message (p : Nat) (text : Text) (fromSession : SessionId) (now : Nat)
  | thread (p : Nat) (step : Server.Step)
  | lookup (p k : Nat) (readable : Bool)
  | post (p k q now : Nat) (answered : Bool)
  | store (i : Nat)
  | unlink (inboxDir : Nat) (id : MessageId)
deriving DecidableEq, Repr

def setServer (n : Network) (p : Nat) (server : Server) : Network :=
  { n with procs := n.procs.modify p fun proc => { proc with server } }

def nextId (proc : Process) (now : Nat) : MessageId := (proc.server.relay.mintMessageId now).1

/-- `handle_message`, up to the write of the inbox file. -/
def receive (n : Network) (p : Nat) (proc : Process) (text : Text) (fromSession : SessionId)
    (now : Nat) : Network :=
  { n.setServer p (proc.server.receive text fromSession now) with
    received := n.received ++
      [{ inboxDir := proc.inboxDir, id := nextId proc now,
         record := { text := some text, fromSession := some fromSession } }]
    minted := n.minted ++ [(p, nextId proc now)] }

def thread? (n : Network) (p : Nat) (step : Server.Step) : Option Network := do
  let proc ← n.procs[p]?
  guard (step.isLocal = true)
  let server ← proc.server.step? step
  some (n.setServer p server)

def lookup? (n : Network) (p k : Nat) (readable : Bool) : Option Network := do
  let proc ← n.procs[p]?
  let c ← proc.server.calls[k]?
  let server ← proc.server.lookup? k (if readable then n.inbox (proc.inboxDir, c.id) else none)
  some (n.setServer p server)

/-- A call in `push_back` posts to a process that answers to the session. -/
def post? (n : Network) (p k q now : Nat) (answered : Bool) : Option Network := do
  let proc ← n.procs[p]?
  let c ← proc.server.calls[k]?
  let dest ← n.procs[q]?
  guard (proc.server.callPhase k = .pushing dest.server.own)
  let n' := { n.receive q dest (pushedText c.id c.text) proc.server.own now with
    posts := n.posts ++ [{ answered := c.id, posted := nextId dest now }] }
  if answered then do
    let proc ← n'.procs[p]?
    let server ← proc.server.push? k true
    some (n'.setServer p server)
  else some n'

def step? (n : Network) : Step → Option Network
  | .boot own inboxDir seed =>
      some { n with procs := n.procs ++ [{ server := .boot own seed, inboxDir }] }
  | .message p text fromSession now => do
      let proc ← n.procs[p]?
      some (n.receive p proc text fromSession now)
  | .thread p step => n.thread? p step
  | .lookup p k readable => n.lookup? p k readable
  | .post p k q now answered => n.post? p k q now answered
  | .store i => do
      let m ← n.received[i]?
      some { n with inbox := Function.update n.inbox (m.inboxDir, m.id) (some m.record) }
  | .unlink inboxDir id => some { n with inbox := Function.update n.inbox (inboxDir, id) none }

def run? (n : Network) (steps : List Step) : Option Network := steps.foldlM step? n

def mintsOwn (n : Network) (p now : Nat) : Bool :=
  (n.procs[p]?).all fun proc => n.minted.all fun e => e.2 ≠ nextId proc now ∨ e.1 = p

def distinctIds (n : Network) : Step → Bool
  | .message p _ _ now => n.mintsOwn p now
  | .post _ _ q now _ => n.mintsOwn q now
  | _ => true

/-! ### Messages that no call has posted -/

def Genuine (n : Network) (id : MessageId) : Prop :=
  (∃ p, (p, id) ∈ n.minted) ∧ ∀ e ∈ n.posts, e.posted ≠ id

/-- Every record and file that is not marked as a reply is about a message that no call has
posted, and so is every call of `push_back`. -/
structure Ok (n : Network) : Prop where
  sound : ∀ (p : Nat) proc, n.procs[p]? = some proc → proc.server.Sound n.Genuine
  minted : ∀ p id, (p, id) ∈ n.minted → ∃ proc, n.procs[p]? = some proc ∧
    ∃ ms seq, id = RelayState.messageId ms seq ∧ seq ≤ proc.server.relay.seq
  received : ∀ m ∈ n.received, isReplyText (m.record.text.getD []) = false → n.Genuine m.id
  inbox : ∀ inboxDir id record, n.inbox (inboxDir, id) = some record →
    isReplyText (record.text.getD []) = false → n.Genuine id
  posts : ∀ e ∈ n.posts, n.Genuine e.answered ∧ ∃ p, (p, e.posted) ∈ n.minted

variable {n n' : Network}

theorem nextId_fresh (h : n.Ok) {p now : Nat} {proc : Process} (hp : n.procs[p]? = some proc)
    (hown : n.mintsOwn p now = true) (q : Nat) : (q, nextId proc now) ∉ n.minted := by
  intro hmem
  have hqp : q = p := by
    simp only [mintsOwn, hp, Option.all_some, List.all_eq_true, decide_eq_true_eq] at hown
    exact (hown _ hmem).resolve_left fun hne => hne rfl
  obtain ⟨proc', hproc', ms, seq, hid, hseq⟩ := h.minted q _ hmem
  rw [hqp, hp] at hproc'
  cases hproc'
  have hnext := (RelayState.messageId_inj hid).2
  omega

theorem setServer_procs (n : Network) (p q : Nat) (server : Server) :
    (n.setServer p server).procs[q]? =
      if p = q then (n.procs[q]?).map fun proc => { proc with server } else n.procs[q]? := by
  simp only [setServer, List.getElem?_modify]
  split_ifs <;> simp

theorem Ok.setServer (h : n.Ok) {p : Nat} {proc : Process} (hp : n.procs[p]? = some proc)
    {server : Server} (hserver : server.Sound n.Genuine ∧ proc.server.Silent server) :
    (n.setServer p server).Ok where
  sound q proc' hq := by
    rw [setServer_procs] at hq
    split_ifs at hq with hpq
    · obtain ⟨_, -, rfl⟩ := Option.map_eq_some_iff.mp hq
      exact hserver.1
    · exact h.sound q proc' hq
  minted q id hmem := by
    obtain ⟨proc', hproc', ms, seq, hid, hseq⟩ := h.minted q id hmem
    rw [setServer_procs]
    split_ifs with hpq
    · rw [← hpq, hp] at hproc'
      cases hproc'
      exact ⟨_, by rw [← hpq, hp]; rfl, ms, seq, hid, hserver.2.seq ▸ hseq⟩
    · exact ⟨proc', hproc', ms, seq, hid, hseq⟩
  received := h.received
  inbox := h.inbox
  posts := h.posts

theorem Ok.receive (h : n.Ok) {p now : Nat} {proc : Process} (hp : n.procs[p]? = some proc)
    (hown : n.mintsOwn p now = true) {text : Text} (fromSession : SessionId)
    {auto : List AutoPost} (hauto : ∀ e ∈ auto, e.posted = nextId proc now ∧
      n.Genuine e.answered ∧ isReplyText text = true) :
    Ok { n.receive p proc text fromSession now with posts := n.posts ++ auto } := by
  have hfresh := nextId_fresh h hp hown
  have hgenuine : ∀ id, n.Genuine id →
      Genuine { n.receive p proc text fromSession now with posts := n.posts ++ auto } id := by
    rintro id ⟨⟨q, hq⟩, hposts⟩
    refine ⟨⟨q, List.mem_append_left _ hq⟩, fun e he => ?_⟩
    obtain he | he := List.mem_append.mp he
    · exact hposts e he
    · rintro rfl
      rw [(hauto e he).1] at hq
      exact hfresh q hq
  have hnew : isReplyText text = false → Genuine
      { n.receive p proc text fromSession now with posts := n.posts ++ auto }
      (nextId proc now) := by
    intro hreply
    refine ⟨⟨p, List.mem_append_right _ (List.mem_singleton_self _)⟩, fun e he => ?_⟩
    obtain he | he := List.mem_append.mp he
    · obtain ⟨q, hq⟩ := (h.posts e he).2
      rintro heq
      exact hfresh q (heq ▸ hq)
    · rw [(hauto e he).2.2] at hreply
      cases hreply
  have hprocs : ∀ q, (n.receive p proc text fromSession now).procs[q]? =
      if p = q then (n.procs[q]?).map fun proc' =>
        { proc' with server := proc.server.receive text fromSession now }
      else n.procs[q]? := fun q => n.setServer_procs p q _
  have hseq : (proc.server.receive text fromSession now).relay.seq = proc.server.relay.seq + 1 := by
    obtain ⟨origins, originsOrder, heq⟩ := proc.server.receive_eq text fromSession now
    rw [heq]
    rfl
  exact
    { sound := by
        intro q proc' hq
        rw [hprocs] at hq
        split_ifs at hq with hpq
        · obtain ⟨_, -, rfl⟩ := Option.map_eq_some_iff.mp hq
          exact ((h.sound p proc hp).mono hgenuine).receive hnew
        · exact (h.sound q proc' hq).mono hgenuine
      minted := by
        intro q id hmem
        rw [hprocs]
        obtain hmem | hmem := List.mem_append.mp hmem
        · obtain ⟨proc', hproc', ms, seq, hid, hle⟩ := h.minted q id hmem
          split_ifs with hpq
          · rw [← hpq, hp] at hproc'
            cases hproc'
            exact ⟨_, by rw [← hpq, hp]; rfl, ms, seq, hid, by dsimp only; omega⟩
          · exact ⟨proc', hproc', ms, seq, hid, hle⟩
        · cases List.mem_singleton.mp hmem
          rw [if_pos rfl, hp]
          exact ⟨_, rfl, now, _, rfl, by dsimp only; omega⟩
      received := by
        intro m hm hreply
        obtain hm | hm := List.mem_append.mp hm
        · exact hgenuine _ (h.received m hm hreply)
        · cases List.mem_singleton.mp hm
          exact hnew hreply
      inbox := fun inboxDir id record hrecord hreply =>
        hgenuine _ (h.inbox inboxDir id record hrecord hreply)
      posts := by
        intro e he
        obtain he | he := List.mem_append.mp he
        · obtain ⟨hanswered, q, hq⟩ := h.posts e he
          exact ⟨hgenuine _ hanswered, q, List.mem_append_left _ hq⟩
        · obtain ⟨hposted, hanswered, -⟩ := hauto e he
          refine ⟨hgenuine _ hanswered, p, List.mem_append_right _ ?_⟩
          rw [hposted]
          exact List.mem_singleton_self _ }

theorem Ok.thread? (h : n.Ok) {p : Nat} {step : Server.Step}
    (hstep : n.thread? p step = some n') : n'.Ok := by
  obtain ⟨proc, hp, hstep⟩ := Option.bind_eq_some_iff.mp hstep
  obtain ⟨hlocal, hstep⟩ := guard_bind_eq_some.mp hstep
  obtain ⟨server, hserver, hstep⟩ := Option.bind_eq_some_iff.mp hstep
  cases hstep
  exact h.setServer hp ((h.sound p proc hp).step? hlocal hserver)

theorem Ok.lookup? (h : n.Ok) {p k : Nat} {readable : Bool}
    (hstep : n.lookup? p k readable = some n') : n'.Ok := by
  obtain ⟨proc, hp, hstep⟩ := Option.bind_eq_some_iff.mp hstep
  obtain ⟨c, hc, hstep⟩ := Option.bind_eq_some_iff.mp hstep
  obtain ⟨server, hserver, hstep⟩ := Option.bind_eq_some_iff.mp hstep
  cases hstep
  refine h.setServer hp ((h.sound p proc hp).lookup? (fun c' o hc' ho hreply => ?_) hserver)
  cases hc'.symm.trans hc
  obtain ⟨record, hrecord, hisReply⟩ := originFromInbox_eq_some ho
  split_ifs at hrecord
  exact h.inbox proc.inboxDir c.id record hrecord (hisReply ▸ hreply)

theorem Ok.post? (h : n.Ok) {p k q now : Nat} {answered : Bool} (hown : n.mintsOwn q now = true)
    (hstep : n.post? p k q now answered = some n') : n'.Ok := by
  obtain ⟨proc, hp, hstep⟩ := Option.bind_eq_some_iff.mp hstep
  obtain ⟨c, hc, hstep⟩ := Option.bind_eq_some_iff.mp hstep
  obtain ⟨dest, hq, hstep⟩ := Option.bind_eq_some_iff.mp hstep
  obtain ⟨hphase, hstep⟩ := guard_bind_eq_some.mp hstep
  have hanswers : n.Genuine c.id := (h.sound p proc hp).pushes k c hc (by rw [hphase]; rfl)
  have hposted : Ok { n.receive q dest (pushedText c.id c.text) proc.server.own now with
      posts := n.posts ++ [{ answered := c.id, posted := nextId dest now }] } := by
    refine h.receive hq hown _ fun e he => ?_
    cases List.mem_singleton.mp he
    exact ⟨rfl, hanswers, isReplyText_pushedText c.id c.text⟩
  dsimp only at hstep
  split_ifs at hstep
  · obtain ⟨proc', hp', hstep⟩ := Option.bind_eq_some_iff.mp hstep
    obtain ⟨server, hserver, hstep⟩ := Option.bind_eq_some_iff.mp hstep
    cases hstep
    exact hposted.setServer hp' ((hposted.sound p proc' hp').push? hserver)
  · cases hstep
    exact hposted

theorem Ok.step? {step : Step} (h : n.Ok) (hown : n.distinctIds step = true)
    (hstep : n.step? step = some n') : n'.Ok := by
  cases step with
  | boot own inboxDir seed =>
      cases hstep
      have hnew : ∀ {p : Nat} {proc new : Process}, (n.procs ++ [new])[p]? = some proc →
          new = proc ∨ n.procs[p]? = some proc := by
        intro p proc new hp
        by_cases hlast : p = n.procs.length
        · subst hlast
          exact .inl (Option.some.inj (List.getElem?_concat_length.symm.trans hp))
        · exact .inr (getElem?_of_snoc hp hlast)
      refine ⟨fun p proc hp => ?_, fun p id hmem => ?_, h.received, h.inbox, h.posts⟩
      · obtain rfl | hp := hnew hp
        · exact ⟨nofun, nofun, nofun⟩
        · exact h.sound p proc hp
      · obtain ⟨proc, hp, hid⟩ := h.minted p id hmem
        exact ⟨proc, getElem?_append_of_eq_some hp _, hid⟩
  | message p text fromSession now =>
      obtain ⟨proc, hp, hstep⟩ := Option.bind_eq_some_iff.mp hstep
      cases hstep
      have hreceived : Ok { n.receive p proc text fromSession now with posts := n.posts ++ [] } :=
        h.receive hp hown fromSession nofun
      rwa [List.append_nil] at hreceived
  | thread p step => exact h.thread? hstep
  | lookup p k readable => exact h.lookup? hstep
  | post p k q now answered => exact h.post? hown hstep
  | store i =>
      obtain ⟨m, hm, hstep⟩ := Option.bind_eq_some_iff.mp hstep
      cases hstep
      refine ⟨h.sound, h.minted, h.received, fun inboxDir id record hrecord hreply => ?_, h.posts⟩
      replace hrecord := (Function.update_apply ..).symm.trans hrecord
      split_ifs at hrecord with hkey
      · cases hrecord
        obtain ⟨-, rfl⟩ := Prod.mk.inj hkey
        exact h.received m (List.mem_of_getElem? hm) hreply
      · exact h.inbox inboxDir id record hrecord hreply
  | unlink inboxDir id =>
      cases hstep
      refine ⟨h.sound, h.minted, h.received, fun dir id' record hrecord hreply => ?_, h.posts⟩
      replace hrecord := (Function.update_apply ..).symm.trans hrecord
      split_ifs at hrecord
      exact h.inbox dir id' record hrecord hreply

theorem ok_empty : ({} : Network).Ok where
  sound := nofun
  minted := nofun
  received := nofun
  inbox := nofun
  posts := nofun

/-- A call for a message that a call has posted does not call `push_back`, and so no post
answers a post. -/
theorem not_pushes_of_posted {steps : List Step} {n : Network}
    (hids : Meets step? distinctIds {} steps = true) (hrun : run? {} steps = some n) :
    (∀ (p k : Nat) proc c, n.procs[p]? = some proc → proc.server.calls[k]? = some c →
      (∃ e ∈ n.posts, e.posted = c.id) → (proc.server.callPhase k).pushes = false) ∧
    ∀ e ∈ n.posts, ∀ e' ∈ n.posts, e.posted ≠ e'.answered := by
  have hok : n.Ok := Meets.invariant (fun h hown hstep => h.step? hown hstep) ok_empty hids hrun
  constructor
  · rintro p k proc c hp hc ⟨e, he, hposted⟩
    refine Bool.eq_false_iff.mpr fun hpushes => ?_
    exact ((hok.sound p proc hp).pushes k c hc hpushes).2 e he hposted
  · intro e he e' he'
    exact (hok.posts e' he').1.2 e he

/-- A session replies to a message of another one, whose server restarts and replies to that. -/
def conversation : List Step :=
  [.boot ['a'] 0 10, .boot ['b'] 0 20, .message 1 ['h', 'i'] ['a'] 5, .store 0,
    .thread 1 (.deliver ⟨RelayState.messageId 5 21, ['y', 'o']⟩), .thread 1 (.enter 0 0),
    .lookup 1 0 true, .post 1 0 0 6 true, .thread 1 (.finish 0), .store 1, .boot ['a'] 0 30,
    .thread 2 (.deliver ⟨RelayState.messageId 6 11, ['o', 'k']⟩), .thread 2 (.enter 0 0),
    .lookup 2 0 true]

theorem not_pushes_conversation : ∃ n proc, run? {} conversation = some n ∧
    n.procs[2]? = some proc ∧ n.posts = [⟨RelayState.messageId 5 21, RelayState.messageId 6 11⟩] ∧
    (proc.server.callPhase 0).pushes = false := by
  obtain ⟨n, hrun⟩ : ∃ n, run? {} conversation = some n := ⟨_, rfl⟩
  obtain ⟨proc, hproc, hcall, hposts⟩ : ∃ proc, n.procs[2]? = some proc ∧
      proc.server.calls[0]? = some ⟨RelayState.messageId 6 11, ['o', 'k']⟩ ∧
      n.posts = [⟨RelayState.messageId 5 21, RelayState.messageId 6 11⟩] := by
    cases hrun
    exact ⟨_, rfl, rfl, rfl⟩
  refine ⟨n, proc, hrun, hproc, hposts, ?_⟩
  refine (not_pushes_of_posted (by decide) hrun).1 2 0 proc _ hproc hcall ?_
  rw [hposts]
  exact ⟨_, List.mem_singleton_self _, rfl⟩

end Network

end QuorumDispatch.Relay
