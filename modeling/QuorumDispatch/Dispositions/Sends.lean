import QuorumDispatch.Dispositions.Ledger
import QuorumDispatch.Dispositions.Summary
import QuorumDispatch.Lib.Tracked

/-!
Sends of messages under a correlation id. A send from here writes the envelope to the log and then
delivers it, or leaves it to the host of the target; a message from another host comes with its envelope
and is delivered only. All of them take the claim of the id, and look in the files of the store before
they act.
-/

namespace QuorumDispatch.Dispositions

open Lib

set_option linter.dupNamespace false

/-! ### A file of rows -/

inductive Written where
  | nothing
  | part
  | unterminated
  | whole
deriving DecidableEq, Repr

/-- The rows that are read from a file, and the row behind them that lacks its newline only. -/
structure JsonlFile (α : Type) where
  rows : List α := []
  tail : Option α := none

namespace JsonlFile

variable {α : Type}

def closed (f : JsonlFile α) : List α := f.rows ++ f.tail.toList

/-- `append_line`: the newline that leads a row closes what is there. -/
def append (f : JsonlFile α) (row : α) : Written → JsonlFile α
  | .nothing => f
  | .part => { rows := f.closed }
  | .unterminated => { rows := f.closed, tail := some row }
  | .whole => { rows := f.closed ++ [row] }

end JsonlFile

def Append.written (serde : SerdeJson) (a : Append) : Written :=
  if a.cut = 0 then .nothing
  else if a.Complete serde then .whole
  else if a.WholeButNewline serde then .unterminated
  else .part

theorem rows_foldl_append {serde : SerdeJson} (appends : List Append) (f : JsonlFile DispositionEvent) :
    (appends.foldl (fun f a => f.append a.event (a.written serde)) f).rows =
      (if appends.any Append.wrote then f.closed else f.rows) ++ landed serde appends := by
  induction appends generalizing f with
  | nil => exact (List.append_nil _).symm
  | cons a rest ih =>
      rw [List.foldl_cons, ih, landed, List.any_cons]
      unfold Append.written Append.Complete Append.WholeButNewline Append.wrote
      rcases Nat.eq_zero_or_pos a.cut with hcut | hcut
      · simp [hcut, JsonlFile.append]
      · by_cases hwhole : (a.line serde).length + 2 ≤ a.cut
        · simp [hcut, hcut.ne', hwhole, JsonlFile.append, JsonlFile.closed]
        · by_cases hrow : a.cut = (a.line serde).length + 1
          · simp [hrow, JsonlFile.append, JsonlFile.closed]
            split_ifs <;> simp
          · simp [hcut, hcut.ne', hwhole, hrow, JsonlFile.append, JsonlFile.closed]

def JsonlFile.of (serde : SerdeJson) (appends : List Append) : JsonlFile DispositionEvent :=
  appends.foldl (fun f a => f.append a.event (a.written serde)) {}

theorem parseDispositions_rows {serde : SerdeJson} {appends : List Append}
    (h : ∀ a ∈ appends, serde.LawfulAt a.event.toJson) :
    (parseDispositions serde (runAppends serde [] appends)).records =
      (JsonlFile.of serde appends).rows := by
  have hsealed : parseDispositions serde (sealedContent [] appends) = {} := by
    unfold sealedContent
    split <;> rfl
  rw [parseDispositions, parseJsonl_of_lines (terminatedLines_runAppends h []), ← parseDispositions, hsealed,
    foldl_readLine_runLines h]
  unfold JsonlFile.of
  rw [rows_foldl_append]
  change [] ++ landed serde appends = _
  congr 1
  split_ifs <;> rfl

/-! ### What a send asks -/

inductive Confirmation where
  | yes
  | no
  | unknown
deriving DecidableEq, Repr

inductive Outcome where
  | receipt (accepted : Bool) (woke : Confirmation)
  | wakeFailed
  | failed
deriving DecidableEq, Repr

inductive Resolved where
  | target (live lane : Bool)
  | refused (cls : String)
deriving DecidableEq, Repr

inductive AppendResult where
  | ok
  | err (written : Written)
deriving DecidableEq, Repr

def AppendResult.written : AppendResult → Written
  | ok => .whole
  | err w => w

inductive SendQ where
  | now
  | mintCorrelationId
  | acquireClaim (id : String)
  | dropClaim (id : String)
  | readLog
  | readEvents
  | appendEnvelope (env : Envelope)
  | appendEvent (ev : DispositionEvent)
  | resolveTarget (target : String)
  | receivePath
  | attempt (id message : String)

def SendA : SendQ → Type
  | .now => Int64
  | .mintCorrelationId => String
  | .acquireClaim _ | .receivePath => Bool
  | .dropClaim _ => Unit
  | .readLog => Option (List Envelope)
  | .readEvents => Option (List DispositionEvent)
  | .appendEnvelope _ | .appendEvent _ => AppendResult
  | .resolveTarget _ => Resolved
  | .attempt .. => Outcome

abbrev Sending := Dialog SendQ SendA

namespace Sending

def query (q : SendQ) : Sending (SendA q) := Dialog.query q

def now : Sending Int64 := query .now

def withClaim (id : String) (body : Sending Nat) : Sending Nat := do
  let claimed : Bool ← query (.acquireClaim id)
  if claimed then
    let code ← body
    query (.dropClaim id)
    return code
  else return 1

/-- `read_local_log`. A file that cannot be read passes for an empty one. -/
def readLocalLog : Sending (List Envelope) := do
  let read : Option (List Envelope) ← query .readLog
  return read.getD []

def readLocalEvents : Sending (List DispositionEvent) := do
  let read : Option (List DispositionEvent) ← query .readEvents
  return read.getD []

def loggedEnvelope (id : String) : Sending (Option Envelope) := do
  return (← readLocalLog).find? (·.correlationId == id)

end Sending

def DispositionEvent.bodyDigest : DispositionEvent → Option String
  | delivered _ _ digest => some digest
  | _ => none

def recordedDigest (events : List DispositionEvent) (id : String) : Option String :=
  (events.find? fun e => e.kind == .delivered && e.correlationId == id).bind (·.bodyDigest)

namespace Sending

/-- `recorded_delivered_digest`, which never fails. -/
def recordedDeliveredDigest (id : String) : Sending (Except Unit (Option String)) := do
  return .ok (recordedDigest (← readLocalEvents) id)

def stampEvent (ev : DispositionEvent) : Sending Unit := do
  let _ ← query (.appendEvent ev)

/-- `Refusal::emit` -/
def exitRefused : Nat := 12

end Sending

/-! ### Delivery -/

/-- An attempt of a lane, or of none where nothing can wake the target. -/
inductive Attempt where
  | lane
  | unwakeable
deriving DecidableEq, Repr

def Attempt.run (id message : String) : Attempt → Sending Outcome
  | lane => Sending.query (.attempt id message)
  | unwakeable => return .wakeFailed

def Outcome.woke : Outcome → Bool
  | receipt _ woke => woke ≠ .no
  | wakeFailed => true
  | failed => false

namespace Sending

section

variable (digest : String → String)

def deliverThenStamp (attempt : Attempt) (message id : String) : Sending Nat := do
  let outcome ← attempt.run id message
  if outcome.woke then
    stampEvent (.queued id (← now))
  match outcome with
  | .receipt true _ =>
      stampEvent (.delivered id (← now) (digest message))
      return 0
  | .receipt false _ =>
      stampEvent (.deliveryFailed id (← now) "delivery")
      return 1
  | .wakeFailed =>
      stampEvent (.deliveryFailed id (← now) "wake")
      return exitRefused
  | .failed =>
      stampEvent (.deliveryFailed id (← now) "delivery")
      return 1

end

end Sending

structure OriginSend where
  rawTarget : String
  message : String
  expiresMs : Int64
  suppliedCorrelationId : Option String
  origin : String
  sender : Option String
deriving DecidableEq, Repr

def saturatingAdd (a b : Int64) : Int64 :=
  .ofInt (max (-2 ^ 63) (min (2 ^ 63 - 1) (a.toInt + b.toInt)))

/-- `build_envelope` -/
def OriginSend.envelope (s : OriginSend) (correlationId : String) (authoredAt : Int64) : Envelope where
  correlationId
  authoredAt
  expiresAt := saturatingAdd authoredAt s.expiresMs
  target := s.rawTarget
  origin := s.origin
  sender := s.sender
  body := s.message

namespace Sending

section

variable (digest : String → String)

def correlationId (s : OriginSend) : Sending String :=
  match s.suppliedCorrelationId with
  | some id => return id
  | none => query .mintCorrelationId

def originRemoteSend (s : OriginSend) : Sending Nat := do
  let authoredAt ← now
  let id ← correlationId s
  withClaim id do
    match ← loggedEnvelope id with
    | some prior =>
        if digest prior.body ≠ digest s.message then return exitRefused
        match ← recordedDeliveredDigest id with
        | .ok _ => return 0
        | .error _ => return 1
    | none =>
        match ← query (.appendEnvelope (s.envelope id authoredAt)) with
        | .ok => return 0
        | .err _ => return 1

/-- The log of the message, unless it is there: a code to return with, if there is one. -/
def logFirst (s : OriginSend) (id : String) (authoredAt : Int64) : Sending (Option Nat) := do
  match ← loggedEnvelope id with
  | some prior =>
      if digest prior.body ≠ digest s.message then return some exitRefused
      match ← recordedDeliveredDigest id with
      | .ok (some _) => return some 0
      | .ok none => return none
      | .error _ => return some 1
  | none =>
      match ← query (.appendEnvelope (s.envelope id authoredAt)) with
      | .ok => return none
      | .err _ => return some 1

def deliverWithDurability (s : OriginSend) (attempt : Attempt) : Sending Nat := do
  let authoredAt ← now
  let id ← correlationId s
  withClaim id do
    match ← logFirst digest s id authoredAt with
    | some code => return code
    | none =>
        stampEvent (.attempted id (← now))
        deliverThenStamp digest attempt s.message id

end

end Sending

inductive Presented where
  | unreadable
  | malformed
  | parsed (envelope : Envelope)
deriving DecidableEq, Repr

namespace Sending

section

variable (digest : String → String)

def stampRefused (id cls : String) : Sending Nat := do
  stampEvent (.refused id (← now) cls)
  return exitRefused

def stampAttempted (id : String) : Sending Unit := do
  stampEvent (.attempted id (← now))

/-- An envelope for a target that was found, once its claim is taken. -/
def admitted (envelope : Envelope) (live lane : Bool) : Sending Nat := do
  let id := envelope.correlationId
  match ← recordedDeliveredDigest id with
  | .ok (some recorded) =>
      if recorded = digest envelope.body then return 0
      stampRefused id "body-mismatch"
  | .error _ => return 1
  | .ok none =>
      if live then
        if !lane then return ← stampRefused id "no-live-receive-path"
        let available : Bool ← query .receivePath
        if !available then return ← stampRefused id "no-live-receive-path"
        stampAttempted id
        deliverThenStamp digest .lane envelope.body id
      else
        stampAttempted id
        deliverThenStamp digest (if lane then .lane else .unwakeable) envelope.body id

def runInbound : Presented → Sending Nat
  | .unreadable => return 1
  | .malformed => return exitRefused
  | .parsed envelope => do
      if envelope.v ≠ 1 then return exitRefused
      if envelope.expiresAt < (← now) then
        return ← stampRefused envelope.correlationId "past-expiry"
      match ← query (.resolveTarget envelope.target) with
      | .refused cls => stampRefused envelope.correlationId cls
      | .target live lane => withClaim envelope.correlationId (admitted digest envelope live lane)

end

end Sending

/-! ### Sends side by side -/

inductive Call where
  | origin (s : OriginSend) (attempt : Attempt)
  | remote (s : OriginSend)
  | inbound (presented : Presented)
deriving DecidableEq, Repr

def Call.run (digest : String → String) : Call → Sending Nat
  | origin s attempt => Sending.deliverWithDurability digest s attempt
  | remote s => Sending.originRemoteSend digest s
  | inbound presented => Sending.runInbound digest presented

/-- The store, the claims with their holders, what the targets have accepted, and which sends have
started their attempt or are dead. -/
structure Store where
  log : JsonlFile Envelope := {}
  events : JsonlFile DispositionEvent := {}
  holder : String → Option Nat := fun _ => none
  accepted : List (String × String) := []
  attempted : List Nat := []
  dead : List Nat := []

namespace Store

def setHolder (s : Store) (id : String) (holder : Option Nat) : Store :=
  { s with holder := fun id' => if id' = id then holder else s.holder id' }

def crash (s : Store) (i : Nat) : Store :=
  { s with dead := i :: s.dead, holder := fun id => if s.holder id = some i then none else s.holder id }

def attempt (s : Store) (i : Nat) (id message : String) (accepted : Bool) : Store :=
  { s with
    accepted := if accepted then s.accepted ++ [(id, message)] else s.accepted
    attempted := i :: s.attempted }

end Store

def Outcome.accepted : Outcome → Bool
  | receipt accepted _ => accepted
  | _ => false

/-- How the store answers. Reads and appends may fail, but for those of a delivered event, and a process
may die before its attempt; what it has written of a row when it dies is a failed append. -/
def sends (digest : String → String) : PoolRules Store (Call.run digest) where
  answers s i e s' := i ∉ s.dead ∧
    match e with
    | ⟨.acquireClaim id, true⟩ => s.holder id = none ∧ s' = s.setHolder id (some i)
    | ⟨.dropClaim id, _⟩ => s' = s.setHolder id none
    | ⟨.readLog, read⟩ => (read = none ∨ read = some s.log.rows) ∧ s' = s
    | ⟨.readEvents, read⟩ => (read = none ∨ read = some s.events.rows) ∧ s' = s
    | ⟨.appendEnvelope env, result⟩ => s' = { s with log := s.log.append env result.written }
    | ⟨.appendEvent ev, result⟩ =>
        (ev.kind = .delivered → result = .ok) ∧ s' = { s with events := s.events.append ev result.written }
    | ⟨.attempt id message, outcome⟩ => s' = s.attempt i id message outcome.accepted
    | _ => s' = s
  moves p s' := ∃ (i : Nat) (f : Fiber (Call.run digest)), p.fibers[i]? = some f ∧
    i ∉ p.shared.attempted ∧ s' = p.shared.crash i

/-! ### What is reported of a send -/

section Reported

variable {serde : SerdeJson} {appends : List Append} {a : Append} {ev : DispositionEvent}

theorem mem_landed_of_complete (ha : a ∈ appends) (hwhole : a.Complete serde) : a.event ∈ landed serde appends := by
  induction appends with
  | nil => cases ha
  | cons b rest ih =>
      rw [landed]
      rcases List.mem_cons.mp ha with rfl | ha
      · rw [if_pos (.inl hwhole)]
        exact List.mem_cons_self
      · split
        case isTrue => exact List.mem_cons_of_mem _ (ih ha)
        case isFalse => exact ih ha

theorem exists_of_mem_landed (h : ev ∈ landed serde appends) :
    ∃ a ∈ appends, a.event = ev ∧ (a.Complete serde ∨ a.WholeButNewline serde) := by
  induction appends with
  | nil => cases h
  | cons b rest ih =>
      have hrest (h : ev ∈ landed serde rest) :
          ∃ a ∈ b :: rest, a.event = ev ∧ (a.Complete serde ∨ a.WholeButNewline serde) := by
        obtain ⟨a, ha, hwritten⟩ := ih h
        exact ⟨a, List.mem_cons_of_mem _ ha, hwritten⟩
      rw [landed] at h
      split at h
      case isTrue hwritten =>
        rcases List.mem_cons.mp h with rfl | h
        · exact ⟨b, List.mem_cons_self, rfl, hwritten.imp_right And.left⟩
        · exact hrest h
      case isFalse => exact hrest h

theorem records_runAppends (h : ∀ a ∈ appends, serde.LawfulAt a.event.toJson) :
    (parseDispositions serde (runAppends serde [] appends)).records = landed serde appends := by
  rw [parseDispositions_rows h, JsonlFile.of, rows_foldl_append]
  split <;> rfl

/-- **A delivery is reported** from the moment its row is whole, whatever is appended behind it and however that is
cut; and none is reported of which no row was written but for its newline. -/
theorem delivered_reported (h : ∀ a ∈ appends, serde.LawfulAt a.event.toJson) (envelopes : List Envelope)
    (now : Int64) (id : String) :
    (∀ a ∈ appends, a.event.kind = .delivered → a.event.correlationId = id → a.Complete serde →
      ∃ r, projectOne envelopes (parseDispositions serde (runAppends serde [] appends)).records now id = some r ∧
        r.state = .delivered ∧ ∃ t, r.firstDeliveredAt = some t ∧ t ≤ a.event.createdAt) ∧
    ∀ r, projectOne envelopes (parseDispositions serde (runAppends serde [] appends)).records now id = some r →
      r.state = .delivered → ∃ a ∈ appends, a.event.kind = .delivered ∧ a.event.correlationId = id ∧
        (a.Complete serde ∨ a.WholeButNewline serde) := by
  rw [records_runAppends h]
  constructor
  · rintro a ha hkind rfl hwhole
    have hmem := mem_landed_of_complete ha hwhole
    have hsays := summarizes_rowOf envelopes (landed serde appends) now a.event.correlationId
    refine ⟨_, (projectOne_eq_some _).mpr ⟨mem_projectSummary.mpr ⟨.inr ⟨_, hmem, rfl⟩, rfl⟩, rfl⟩,
      hsays.delivered.mpr ⟨_, hmem, hkind, rfl⟩, ?_⟩
    have htime : a.event.createdAt ∈ timesOf .delivered
        ((landed serde appends).filter (·.correlationId = a.event.correlationId)) :=
      List.mem_map.mpr ⟨a.event, List.mem_filter.mpr ⟨List.mem_filter.mpr ⟨hmem, by simp⟩, by simp [hkind]⟩, rfl⟩
    have hfirst := hsays.firstDeliveredAt
    cases ht : (rowOf envelopes (landed serde appends) now a.event.correlationId).firstDeliveredAt with
    | none =>
        rw [ht] at hfirst
        have hnone : timesOf .delivered
            ((landed serde appends).filter (·.correlationId = a.event.correlationId)) = [] := hfirst
        rw [hnone] at htime
        cases htime
    | some t =>
        rw [ht] at hfirst
        exact ⟨t, rfl, hfirst.2 _ htime⟩
  · intro r hr hstate
    obtain ⟨hmem, rfl⟩ := (projectOne_eq_some id).mp hr
    obtain ⟨-, heq⟩ := mem_projectSummary.mp hmem
    have hsays := summarizes_rowOf envelopes (landed serde appends) now r.correlationId
    rw [← heq] at hsays
    obtain ⟨ev, hev, hkind, hid⟩ := hsays.delivered.mp hstate
    obtain ⟨a, ha, rfl, hwritten⟩ := exists_of_mem_landed hev
    exact ⟨a, ha, hkind, hid, hwritten⟩

def deliveredThenTorn : List Append := [⟨.delivered "a" 5 "d", 100⟩, ⟨.attempted "a" 6, 7⟩]

theorem delivered_reported_torn :
    let serde := SerdeJson.knowing (deliveredThenTorn.map (·.event.toJson))
    ∃ r, projectOne [] (parseDispositions serde (runAppends serde [] deliveredThenTorn)).records 9 "a" = some r ∧
      r.state = .delivered ∧ ∃ t, r.firstDeliveredAt = some t ∧ t ≤ 5 := by
  intro serde
  have hlawful : ∀ a ∈ deliveredThenTorn, serde.LawfulAt a.event.toJson := by
    obtain ⟨hdelivered, hattempted⟩ : serde.LawfulAt _ ∧ serde.LawfulAt _ :=
      SerdeJson.lawfulAt_knowing_pair (by decide) (by decide) (by decide) (by decide)
    exact List.forall_mem_cons.mpr ⟨hdelivered, List.forall_mem_singleton.mpr hattempted⟩
  exact (delivered_reported hlawful [] 9 "a").1 _ List.mem_cons_self rfl rfl (by decide)

end Reported

end QuorumDispatch.Dispositions
