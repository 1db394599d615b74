import Mathlib.Logic.Function.Basic
import QuorumDispatch.Dispositions.Sends

/-!
A correlation id delivers one body, once. Who holds the claim of an id is alone with the rows of the id,
and leaves them settled: one envelope, one digest, and a delivered event if an attempt was accepted.

The programs do not see to it in every store. A file that cannot be read passes for an empty one, a
send from here does not look for delivered events of an id that it has not logged, an inbound send does
not look into the log, and an envelope of which only the newline was not written comes back.
-/

namespace QuorumDispatch.Dispositions

open Lib

set_option linter.dupNamespace false

variable {digest : String → String}

/-! ### The digests of an id -/

/-- The digests of the envelopes, the delivered events and the accepted attempts of one id. -/
@[ext]
structure View where
  logged : List String
  delivered : List String
  accepted : List String

def loggedOf (digest : String → String) (id : String) (rows : List Envelope) : List String :=
  (rows.filter (·.correlationId == id)).map fun env => digest env.body

def deliveredOf (id : String) (events : List DispositionEvent) : List String :=
  (events.filter (·.correlationId == id)).filterMap DispositionEvent.bodyDigest

def acceptedOf (digest : String → String) (id : String) (accepted : List (String × String)) : List String :=
  (accepted.filter (·.1 == id)).map fun a => digest a.2

def Store.view (digest : String → String) (s : Store) (id : String) : View where
  logged := loggedOf digest id s.log.rows
  delivered := deliveredOf id s.events.rows
  accepted := acceptedOf digest id s.accepted

namespace View

def all (v : View) : List String := v.logged ++ v.delivered ++ v.accepted

/-- One envelope and one accepted attempt at most, and one body in all. -/
structure One (v : View) : Prop where
  logged : v.logged.length ≤ 1
  accepted : v.accepted.length ≤ 1
  same : ∀ d ∈ v.all, ∀ d' ∈ v.all, d = d'

structure Settled (v : View) : Prop extends One v where
  stamped : v.accepted ≠ [] → v.delivered ≠ []

end View

/-! ### The property -/

/-- **One body, once**, of a store with its sends. -/
structure OneBody (digest : String → String) (p : Pool Store (Call.run digest)) : Prop where
  views : ∀ id, (p.shared.view digest id).One
  durable : ∀ (i : Nat) f s attempt id message next, p.fibers[i]? = some f → i ∉ p.shared.dead →
    f.key = .origin s attempt → f.rest = .ask (.attempt id message) next →
      ∃ env ∈ p.shared.log.rows, env.correlationId = id ∧ digest env.body = digest message
  failClosed : ∀ f ∈ p.fibers,
    (⟨.readLog, none⟩ : Exchange SendQ SendA) ∈ f.asked ∨ (⟨.readEvents, none⟩ : Exchange SendQ SendA) ∈ f.asked →
      (∀ id message outcome, (⟨.attempt id message, outcome⟩ : Exchange SendQ SendA) ∉ f.asked) ∧
        ∀ code, f.rest = .pure code → code ≠ 0

/-- What a send finds under its claim fits what it brings: a send from here finds no delivered event of
an id that it has not logged (the host of the target, none with another body), and an inbound send finds
no envelope with another body. -/
def Fits (digest : String → String) (s : Store) (id : String) : Call → Prop
  | .origin _ _ => s.log.rows.find? (·.correlationId == id) = none → recordedDigest s.events.rows id = none
  | .remote o => s.log.rows.find? (·.correlationId == id) = none →
      ∀ d, recordedDigest s.events.rows id = some d → d = digest o.message
  | .inbound (.parsed envelope) => ∀ prior, s.log.rows.find? (·.correlationId == id) = some prior →
      digest prior.body = digest envelope.body
  | .inbound _ => True

/-- The claim is taken where the send fits the store, reads succeed, and no append of an envelope stops
just before its last newline. -/
def Careful (digest : String → String) (p : Pool Store (Call.run digest)) :
    PoolAct Call SendQ SendA → Prop
  | .answer i ⟨.acquireClaim id, true⟩ => ∀ f, p.fibers[i]? = some f → Fits digest p.shared id f.key
  | .answer _ ⟨.readLog, none⟩ => False
  | .answer _ ⟨.readEvents, none⟩ => False
  | .answer _ ⟨.appendEnvelope _, result⟩ => result.written ≠ .unterminated
  | _ => True

/-! ### Rows of one id -/

section Rows

variable {id id' : String} {rows : List Envelope} {events : List DispositionEvent} {env : Envelope}
  {ev : DispositionEvent}

theorem loggedOf_snoc : loggedOf digest id (rows ++ [env]) =
    loggedOf digest id rows ++ if env.correlationId = id then [digest env.body] else [] := by
  unfold loggedOf
  rw [List.filter_append, List.map_append, List.filter_singleton]
  by_cases h : env.correlationId = id
  · simp [h]
  · rw [beq_eq_false_iff_ne.mpr h, if_neg h]
    rfl

theorem deliveredOf_append (more : List DispositionEvent) : deliveredOf id (events ++ more) =
    deliveredOf id events ++ deliveredOf id more := by
  unfold deliveredOf
  rw [List.filter_append, List.filterMap_append]

theorem deliveredOf_singleton : deliveredOf id [ev] =
    if ev.correlationId = id then ev.bodyDigest.toList else [] := by
  unfold deliveredOf
  by_cases h : ev.correlationId = id
  · cases hd : ev.bodyDigest <;> simp [h, hd]
  · simp [h]

theorem find?_eq_none_iff : rows.find? (·.correlationId == id) = none ↔ loggedOf digest id rows = [] := by
  unfold loggedOf
  rw [List.map_eq_nil_iff, List.filter_eq_nil_iff, List.find?_eq_none]

theorem mem_loggedOf_of_find? (h : rows.find? (·.correlationId == id) = some env) :
    digest env.body ∈ loggedOf digest id rows := by
  have hid : (env.correlationId == id) = true := by simpa using List.find?_some h
  exact List.mem_map.mpr ⟨env, List.mem_filter.mpr ⟨List.mem_of_find?_eq_some h, hid⟩, rfl⟩

theorem kind_eq_delivered (ev : DispositionEvent) : (ev.kind == .delivered) = ev.bodyDigest.isSome := by
  cases ev <;> rfl

theorem recordedDigest_eq : recordedDigest events id = (deliveredOf id events).head? := by
  induction events with
  | nil => rfl
  | cons ev events ih =>
      have hcons : deliveredOf id ([ev] ++ events) = deliveredOf id [ev] ++ deliveredOf id events :=
        deliveredOf_append events
      unfold recordedDigest at ih ⊢
      change _ = (deliveredOf id ([ev] ++ events)).head?
      rw [hcons, deliveredOf_singleton, List.find?_cons]
      by_cases hid : ev.correlationId = id
      · rw [kind_eq_delivered, if_pos hid]
        cases hd : ev.bodyDigest with
        | none => simpa using ih
        | some d => simp [hid, hd]
      · rw [beq_eq_false_iff_ne.mpr hid, Bool.and_false, if_neg hid]
        exact ih

end Rows

/-! ### What a send holds -/

namespace View

def log (v : View) (d : String) : View := { v with logged := v.logged ++ [d] }

def stamp (v : View) (d : String) : View := { v with delivered := v.delivered ++ [d] }

def accept (v : View) (d : String) : View := { v with accepted := v.accepted ++ [d] }

variable {v : View} {d : String}

theorem mem_all {v : View} : d ∈ v.all ↔ d ∈ v.logged ∨ d ∈ v.delivered ∨ d ∈ v.accepted := by
  unfold all
  rw [List.mem_append, List.mem_append, or_assoc]

/-- With envelopes and delivered events of one body, there is one body. -/
theorem Settled.all_eq (h : v.Settled) (hlogged : ∀ d' ∈ v.logged, d' = d)
    (hdelivered : ∀ d' ∈ v.delivered, d' = d) : ∀ d' ∈ v.all, d' = d := by
  intro d' hd'
  rcases mem_all.mp hd' with hold | hold | hold
  · exact hlogged d' hold
  · exact hdelivered d' hold
  · -- an accepted attempt has its delivered event
    obtain ⟨d₁, hd₁⟩ := List.exists_mem_of_ne_nil _ (h.stamped (List.ne_nil_of_mem hold))
    rw [h.same d' hd' d₁ (mem_all.mpr (.inr (.inl hd₁)))]
    exact hdelivered d₁ hd₁

theorem Settled.log (h : v.Settled) (hlogged : v.logged = []) (hall : ∀ d' ∈ v.all, d' = d) :
    (v.log d).Settled where
  logged := by simp [View.log, hlogged]
  accepted := h.accepted
  same := by
    have hnew : ∀ d' ∈ (v.log d).all, d' = d := fun d' hd' => by
      rw [mem_all] at hd'
      simp only [View.log, List.mem_append, List.mem_singleton] at hd'
      rcases hd' with (hold | rfl) | hold
      · exact hall d' (mem_all.mpr (.inl hold))
      · rfl
      · exact hall d' (mem_all.mpr (.inr hold))
    exact fun d₁ h₁ d₂ h₂ => (hnew d₁ h₁).trans (hnew d₂ h₂).symm
  stamped := h.stamped

theorem One.accept (h : v.One) (haccepted : v.accepted = []) (hall : ∀ d' ∈ v.all, d' = d) :
    (v.accept d).One where
  logged := h.logged
  accepted := by simp [View.accept, haccepted]
  same := by
    have hnew : ∀ d' ∈ (v.accept d).all, d' = d := fun d' hd' => by
      rw [mem_all] at hd'
      simp only [View.accept, List.mem_append, List.mem_singleton] at hd'
      rcases hd' with hold | hold | hold | rfl
      · exact hall d' (mem_all.mpr (.inl hold))
      · exact hall d' (mem_all.mpr (.inr (.inl hold)))
      · exact hall d' (mem_all.mpr (.inr (.inr hold)))
      · rfl
    exact fun d₁ h₁ d₂ h₂ => (hnew d₁ h₁).trans (hnew d₂ h₂).symm

/-- The delivered event of an accepted attempt. -/
theorem One.stamp (h : v.One) (haccepted : v.accepted = [d]) : (v.stamp d).Settled where
  logged := h.logged
  accepted := h.accepted
  same := by
    have hall : ∀ d' ∈ v.all, d' = d := fun d' hd' =>
      h.same d' hd' d (mem_all.mpr (.inr (.inr (haccepted ▸ List.mem_singleton_self d))))
    have hnew : ∀ d' ∈ (v.stamp d).all, d' = d := fun d' hd' => by
      rw [mem_all] at hd'
      simp only [View.stamp, List.mem_append, List.mem_singleton] at hd'
      rcases hd' with hold | (hold | rfl) | hold
      · exact hall d' (mem_all.mpr (.inl hold))
      · exact hall d' (mem_all.mpr (.inr (.inl hold)))
      · rfl
      · exact hall d' (mem_all.mpr (.inr (.inr hold)))
    exact fun d₁ h₁ d₂ h₂ => (hnew d₁ h₁).trans (hnew d₂ h₂).symm
  stamped _ := by simp [View.stamp]

end View

/-- A send under way: the id whose claim it holds, with its view, whether its attempt has started, and the
digest of an accepted attempt that has no delivered event yet. -/
structure Own where
  claim : Option (String × View) := none
  attempted : Bool := false
  pending : Option String := none

namespace Own

def put (o : Own) (f : View → View) : Own := { o with claim := o.claim.map fun c => (c.1, f c.2) }

/-- The view of a send is settled, but while a delivered event is pending. -/
structure Sound (o : Own) : Prop where
  settled : ∀ id v, o.claim = some (id, v) → o.pending = none → v.Settled
  pending : ∀ id v d, o.claim = some (id, v) → o.pending = some d →
    v.One ∧ v.accepted = [d] ∧ o.attempted = true

end Own

def View.Fits (digest : String → String) (v : View) : Call → Prop
  | .origin _ _ => v.logged = [] → v.delivered = []
  | .remote o => v.logged = [] → ∀ d ∈ v.delivered, d = digest o.message
  | .inbound (.parsed envelope) => ∀ d ∈ v.logged, d = digest envelope.body
  | .inbound _ => True

def Own.trans (digest : String → String) (key : Call) (o : Own) (e : Exchange SendQ SendA) (o' : Own) : Prop :=
  match e with
  | ⟨.acquireClaim id, true⟩ => ∃ v : View, v.Settled ∧ v.Fits digest key ∧ o' = { o with claim := some (id, v) }
  | ⟨.dropClaim _, _⟩ => o' = { o with claim := none }
  | ⟨.readLog, some rows⟩ => o' = o ∧ ∀ id v, o.claim = some (id, v) → loggedOf digest id rows = v.logged
  | ⟨.readLog, none⟩ => False
  | ⟨.readEvents, some events⟩ => o' = o ∧ ∀ id v, o.claim = some (id, v) → deliveredOf id events = v.delivered
  | ⟨.readEvents, none⟩ => False
  | ⟨.appendEnvelope env, result⟩ => o' = if result.written = .whole then o.put (·.log (digest env.body)) else o
  | ⟨.appendEvent ev, _⟩ =>
      match ev.bodyDigest with
      | some d => o' = { o.put (·.stamp d) with pending := none }
      | none => o' = o
  | ⟨.attempt _ message, outcome⟩ =>
      if outcome.accepted then
        o' = { o.put (·.accept (digest message)) with attempted := true, pending := some (digest message) }
      else o' = { o with attempted := true }
  | _ => o' = o

def Own.allowed (digest : String → String) (key : Call) (o : Own) : SendQ → Prop
  | .acquireClaim _ => o = {}
  | .dropClaim id => ∃ v, o.claim = some (id, v) ∧ o.pending = none
  | .appendEnvelope env => ∃ v, o.claim = some (env.correlationId, v) ∧ o.pending = none ∧ v.logged = [] ∧
      ∀ d ∈ v.all, d = digest env.body
  | .appendEvent ev => ∀ d, ev.bodyDigest = some d → ∃ v, o.claim = some (ev.correlationId, v) ∧ o.pending = some d
  | .attempt id message => ∃ v, o.claim = some (id, v) ∧ o.pending = none ∧ v.delivered = [] ∧
      (∀ d ∈ v.logged, d = digest message) ∧ ∀ s attempt, key = .origin s attempt → v.logged ≠ []
  | _ => True

structure Own.Agrees (digest : String → String) (s : Store) (i : Nat) (o : Own) : Prop where
  sound : o.Sound
  attempted : i ∈ s.attempted → o.attempted = true
  started : o.attempted = true → i ∈ s.attempted
  holds : ∀ id, s.holder id = some i ↔ ∃ v, o.claim = some (id, v)
  view : ∀ id v, o.claim = some (id, v) → s.view digest id = v

structure Store.Known (digest : String → String) (n : Nat) (s : Store) : Prop where
  logTail : s.log.tail = none
  eventsTail : ∀ ev, s.events.tail = some ev → ev.bodyDigest = none
  holders : ∀ id i, s.holder id = some i → i < n ∧ i ∉ s.dead
  attempted : ∀ i ∈ s.attempted, i < n
  dead : ∀ i ∈ s.dead, i < n
  one : ∀ id, (s.view digest id).One
  settled : ∀ id, s.holder id = none → (s.view digest id).Settled

def tracking (digest : String → String) : Tracking Call SendQ SendA Store Own where
  first := {}
  trans := Own.trans digest
  allowed := Own.allowed digest
  agrees s i o := i ∈ s.dead ∨ o.Agrees digest s i
  known := Store.Known digest

/-! ### The programs -/

namespace Sending

variable {key : Call} {o : Own} {id message : String} {v : View}

abbrev Keeps {α : Type} (digest : String → String) (key : Call) (o : Own) (m : Sending α)
    (post : α → Own → Prop) : Prop :=
  Dialog.Keeps (Own.trans digest key) (Own.allowed digest key) o m post

theorem keeps_stampEvent {ev : DispositionEvent} (hev : ev.bodyDigest = none) :
    Keeps digest key o (stampEvent ev) fun _ o' => o' = o := by
  refine ⟨fun d hd => ?_, fun result o' ho' => ?_⟩
  · rw [hev] at hd
    cases hd
  · simp only [Own.trans, hev] at ho'
    exact ho'

theorem keeps_now {α : Type} {f : Int64 → Sending α} {post : α → Own → Prop}
    (hf : ∀ t, Keeps digest key o (f t) post) : Keeps digest key o (now >>= f) post := by
  refine ⟨trivial, fun t o' ho' => ?_⟩
  obtain rfl : o' = o := ho'
  exact hf t

theorem keeps_stampNow {α : Type} {ev : Int64 → DispositionEvent} {rest : Sending α} {post : α → Own → Prop}
    (hev : ∀ t, (ev t).bodyDigest = none) (hrest : Keeps digest key o rest post) :
    Keeps digest key o (now >>= fun t => stampEvent (ev t) >>= fun _ => rest) post := by
  refine keeps_now fun t => ?_
  refine Dialog.Keeps.bind (keeps_stampEvent (hev t)) ?_
  rintro _ _ rfl
  exact hrest

theorem keeps_loggedEnvelope (hclaim : o.claim = some (id, v)) :
    Keeps digest key o (loggedEnvelope id) fun r o' => o' = o ∧ (r = none → v.logged = []) ∧
      ∀ prior, r = some prior → digest prior.body ∈ v.logged := by
  refine ⟨trivial, fun read o' ho' => ?_⟩
  cases read with
  | none => exact ho'.elim
  | some rows =>
      obtain ⟨rfl, hrows⟩ := ho'
      refine ⟨rfl, fun hnone => ?_, fun prior hprior => ?_⟩
      · rw [← hrows id v hclaim]
        exact find?_eq_none_iff.mp hnone
      · rw [← hrows id v hclaim]
        exact mem_loggedOf_of_find? hprior

theorem keeps_recordedDeliveredDigest (hclaim : o.claim = some (id, v)) :
    Keeps digest key o (recordedDeliveredDigest id) fun r o' => o' = o ∧ ∃ recorded, r = .ok recorded ∧
      (recorded = none → v.delivered = []) := by
  refine ⟨trivial, fun read o' ho' => ?_⟩
  cases read with
  | none => exact ho'.elim
  | some events =>
      obtain ⟨rfl, hevents⟩ := ho'
      refine ⟨rfl, _, rfl, fun hnone => ?_⟩
      have hhead : recordedDigest events id = none := hnone
      rw [recordedDigest_eq, hevents id v hclaim, List.head?_eq_none_iff] at hhead
      exact hhead

def stampOutcome (digest : String → String) (message id : String) (outcome : Outcome) : Sending Nat :=
  match outcome with
  | .receipt true _ => do
      stampEvent (.delivered id (← now) (digest message))
      return 0
  | .receipt false _ => do
      stampEvent (.deliveryFailed id (← now) "delivery")
      return 1
  | .wakeFailed => do
      stampEvent (.deliveryFailed id (← now) "wake")
      return exitRefused
  | .failed => do
      stampEvent (.deliveryFailed id (← now) "delivery")
      return 1

def Holds (id : String) (o : Own) : Prop := ∃ v, o.claim = some (id, v) ∧ o.pending = none

theorem keeps_deliverThenStamp {attempt : Attempt} (hclaim : o.claim = some (id, v)) (hpending : o.pending = none)
    (hallowed : Own.allowed digest key o (.attempt id message)) :
    Keeps digest key o (deliverThenStamp digest attempt message id) fun _ o' => Holds id o' := by
  have hrun : Keeps digest key o (attempt.run id message) fun outcome o' =>
      if outcome.accepted then
        o' = { o.put (·.accept (digest message)) with attempted := true, pending := some (digest message) }
      else Holds id o' := by
    cases attempt with
    | lane =>
        refine ⟨hallowed, fun outcome o' ho' => ?_⟩
        change if outcome.accepted then _ else _ at ho'
        change if outcome.accepted then _ else _
        split_ifs at ho' ⊢ with hacc
        · exact ho'
        · rw [ho']
          exact ⟨v, hclaim, hpending⟩
    | unwakeable => exact ⟨v, hclaim, hpending⟩
  refine Dialog.Keeps.bind hrun fun outcome o₁ ho₁ => ?_
  suffices hjoin : Keeps digest key o₁ (stampOutcome digest message id outcome) fun _ o' => Holds id o' by
    unfold stampOutcome at hjoin
    dsimp only
    -- the event of a wake changes nothing
    split_ifs
    · exact keeps_stampNow (fun _ => rfl) hjoin
    · exact hjoin
  unfold stampOutcome
  cases outcome with
  | receipt accepted woke =>
      cases accepted with
      | false => exact keeps_stampNow (fun _ => rfl) ho₁
      | true =>
          obtain rfl : o₁ = _ := ho₁
          refine ⟨trivial, ?_⟩
          rintro t _ rfl
          refine ⟨fun d hd => ?_, ?_⟩
          · obtain rfl : digest message = d := Option.some.inj hd
            exact ⟨_, congrArg (Option.map _) hclaim, rfl⟩
          · rintro _ _ rfl
            exact ⟨_, congrArg (Option.map _) (congrArg (Option.map _) hclaim), rfl⟩
  | wakeFailed => exact keeps_stampNow (fun _ => rfl) ho₁
  | failed => exact keeps_stampNow (fun _ => rfl) ho₁

theorem keeps_withClaim {body : Sending Nat} (hbody : ∀ v : View, v.Settled → v.Fits digest key →
    Keeps digest key { claim := some (id, v) } body fun _ o' => Holds id o') :
    Keeps digest key {} (withClaim id body) fun _ _ => True := by
  refine ⟨rfl, fun claimed o' ho' => ?_⟩
  cases claimed with
  | false => exact trivial
  | true =>
      obtain ⟨v, hsettled, hfits, rfl⟩ := ho'
      change Keeps digest key _ (body >>= fun code => query (.dropClaim id) >>= fun _ => return code) _
      refine Dialog.Keeps.bind (hbody v hsettled hfits) fun code o₁ hholds => ?_
      exact ⟨hholds, fun _ _ _ => trivial⟩

theorem keeps_correlationId (s : OriginSend) : Keeps digest key o (correlationId s) fun _ o' => o' = o := by
  unfold correlationId
  split
  · exact rfl
  · exact ⟨trivial, fun _ _ ho' => ho'⟩

theorem Holds.put (h : Holds id o) (f : View → View) : Holds id (o.put f) := by
  obtain ⟨v, hclaim, hpending⟩ := h
  exact ⟨f v, congrArg (Option.map _) hclaim, hpending⟩

theorem keeps_appendEnvelope {env : Envelope} {α : Type} {next : AppendResult → Sending α}
    {post : α → Own → Prop} (hclaim : o.claim = some (env.correlationId, v)) (hpending : o.pending = none)
    (hlogged : v.logged = []) (hall : ∀ d ∈ v.all, d = digest env.body)
    (hok : Keeps digest key (o.put (·.log (digest env.body))) (next .ok) post)
    (herr : ∀ w o', Holds env.correlationId o' → Keeps digest key o' (next (.err w)) post) :
    Keeps digest key o (query (.appendEnvelope env) >>= next) post := by
  refine ⟨⟨v, hclaim, hpending, hlogged, hall⟩, fun result o' ho' => ?_⟩
  change o' = if AppendResult.written result = .whole then _ else o at ho'
  cases result with
  | ok =>
      obtain rfl : o' = _ := ho'
      exact hok
  | err w =>
      refine herr w o' ?_
      rw [ho']
      split_ifs
      · exact Holds.put ⟨v, hclaim, hpending⟩ _
      · exact ⟨v, hclaim, hpending⟩

theorem keeps_originRemoteSend (s : OriginSend) :
    Keeps digest (.remote s) {} (originRemoteSend digest s) fun _ _ => True := by
  refine keeps_now fun authoredAt => ?_
  refine Dialog.Keeps.bind (keeps_correlationId s) ?_
  rintro id _ rfl
  refine keeps_withClaim fun v hsettled hfits => ?_
  have hholds : Holds id { claim := some (id, v) } := ⟨v, rfl, rfl⟩
  refine Dialog.Keeps.bind (keeps_loggedEnvelope rfl) ?_
  rintro logged _ ⟨rfl, hnone, -⟩
  cases logged with
  | some prior =>
      dsimp only
      split_ifs
      · exact hholds
      · refine Dialog.Keeps.bind (keeps_recordedDeliveredDigest rfl) ?_
        rintro recorded _ ⟨rfl, _, rfl, -⟩
        exact hholds
  | none =>
      have hlogged := hnone rfl
      refine keeps_appendEnvelope rfl rfl hlogged ?_ (hholds.put _) fun _ _ h => h
      exact hsettled.all_eq (by rw [hlogged]; exact nofun) (hfits hlogged)

theorem keeps_logFirst {s : OriginSend} {attempt : Attempt} (authoredAt : Int64) (hsettled : v.Settled)
    (hfits : v.Fits digest (.origin s attempt)) :
    Keeps digest key { claim := some (id, v) } (logFirst digest s id authoredAt) fun r o' =>
      Holds id o' ∧ (r = none → ∃ v', o'.claim = some (id, v') ∧ v'.delivered = [] ∧ v'.logged ≠ [] ∧
        ∀ d ∈ v'.logged, d = digest s.message) := by
  have hholds : Holds id { claim := some (id, v) } := ⟨v, rfl, rfl⟩
  refine Dialog.Keeps.bind (keeps_loggedEnvelope rfl) ?_
  rintro logged _ ⟨rfl, hnone, hprior⟩
  cases logged with
  | some prior =>
      dsimp only
      split_ifs with hsame
      · exact ⟨hholds, nofun⟩
      · refine Dialog.Keeps.bind (keeps_recordedDeliveredDigest rfl) ?_
        rintro recorded _ ⟨rfl, found, rfl, hfound⟩
        have hmem := hprior prior rfl
        cases found with
        | some d => exact ⟨hholds, nofun⟩
        | none =>
            refine ⟨hholds, fun _ => ⟨v, rfl, hfound rfl, List.ne_nil_of_mem hmem, fun d hd => ?_⟩⟩
            rw [← not_not.mp hsame]
            exact hsettled.same d (View.mem_all.mpr (.inl hd)) _ (View.mem_all.mpr (.inl hmem))
  | none =>
      have hlogged := hnone rfl
      have hdelivered : v.delivered = [] := hfits hlogged
      refine keeps_appendEnvelope rfl rfl hlogged ?_ ?_ fun _ _ h => ⟨h, nofun⟩
      · refine hsettled.all_eq ?_ ?_
        · rw [hlogged]
          exact nofun
        · rw [hdelivered]
          exact nofun
      · refine ⟨hholds.put _, fun _ => ⟨_, rfl, hdelivered, ?_⟩⟩
        change v.logged ++ [digest s.message] ≠ [] ∧ ∀ d ∈ v.logged ++ [digest s.message], d = digest s.message
        rw [hlogged]
        exact ⟨nofun, fun d hd => List.mem_singleton.mp hd⟩

theorem keeps_deliverWithDurability (s : OriginSend) (attempt : Attempt) :
    Keeps digest (.origin s attempt) {} (deliverWithDurability digest s attempt) fun _ _ => True := by
  refine keeps_now fun authoredAt => ?_
  refine Dialog.Keeps.bind (keeps_correlationId s) ?_
  rintro id _ rfl
  refine keeps_withClaim fun v hsettled hfits => ?_
  refine Dialog.Keeps.bind (keeps_logFirst authoredAt hsettled hfits) ?_
  rintro code o ⟨hholds, hlogged⟩
  cases code with
  | some code => exact hholds
  | none =>
      obtain ⟨v', hclaim, hdelivered, hne, hall⟩ := hlogged rfl
      have hpending : o.pending = none := hholds.elim fun _ h => h.2
      refine keeps_stampNow (fun _ => rfl) (keeps_deliverThenStamp hclaim hpending ?_)
      exact ⟨v', hclaim, hpending, hdelivered, hall, fun _ _ _ => hne⟩

theorem keeps_stampRefused (hholds : Holds id o) (id' cls : String) :
    Keeps digest key o (stampRefused id' cls) fun _ o' => Holds id o' :=
  keeps_stampNow (fun _ => rfl) hholds

theorem keeps_stampAttempted {α : Type} {rest : Sending α} {post : α → Own → Prop}
    (hrest : Keeps digest key o rest post) :
    Keeps digest key o (stampAttempted id >>= fun _ => rest) post :=
  keeps_stampNow (fun _ => rfl) hrest

theorem keeps_admitted {envelope : Envelope} (live lane : Bool)
    (hfits : v.Fits digest (.inbound (.parsed envelope))) :
    Keeps digest (.inbound (.parsed envelope)) { claim := some (envelope.correlationId, v) }
      (admitted digest envelope live lane) fun _ o' => Holds envelope.correlationId o' := by
  have hholds : Holds envelope.correlationId { claim := some (envelope.correlationId, v) } := ⟨v, rfl, rfl⟩
  refine Dialog.Keeps.bind (keeps_recordedDeliveredDigest rfl) ?_
  rintro recorded _ ⟨rfl, found, rfl, hfound⟩
  cases found with
  | some d =>
      dsimp only
      split_ifs
      · exact hholds
      · exact keeps_stampRefused hholds _ _
  | none =>
      have hdeliver (attempt : Attempt) : Keeps digest (.inbound (.parsed envelope))
          { claim := some (envelope.correlationId, v) }
          (deliverThenStamp digest attempt envelope.body envelope.correlationId)
          fun _ o' => Holds envelope.correlationId o' :=
        keeps_deliverThenStamp rfl rfl ⟨v, rfl, rfl, hfound rfl, hfits, nofun⟩
      dsimp only
      split_ifs
      · exact keeps_stampRefused hholds _ _
      · refine ⟨trivial, fun available o' ho' => ?_⟩
        obtain rfl : o' = _ := ho'
        change Keeps digest _ _ (if (!available) = true then _ else _) _
        split_ifs
        · exact keeps_stampRefused hholds _ _
        · exact keeps_stampAttempted (hdeliver .lane)
      · exact keeps_stampAttempted (hdeliver _)
      · exact keeps_stampAttempted (hdeliver _)

theorem keeps_runInbound (presented : Presented) :
    Keeps digest (.inbound presented) {} (runInbound digest presented) fun _ _ => True := by
  cases presented with
  | unreadable => exact trivial
  | malformed => exact trivial
  | parsed envelope =>
      have hrefused (id cls : String) : Keeps digest (.inbound (.parsed envelope)) {} (stampRefused id cls)
          fun _ _ => True := keeps_stampNow (fun _ => rfl) trivial
      unfold runInbound
      dsimp only
      split_ifs
      · exact trivial
      · refine keeps_now fun t => ?_
        split_ifs
        · exact hrefused _ _
        · refine ⟨trivial, fun resolved o₂ ho₂ => ?_⟩
          obtain rfl : o₂ = {} := ho₂
          cases resolved with
          | refused cls => exact hrefused _ _
          | target live lane =>
              exact keeps_withClaim fun v _ hfits => keeps_admitted live lane hfits

theorem keeps_run (key : Call) : Keeps digest key {} (key.run digest) fun _ _ => True := by
  cases key with
  | origin s attempt => exact keeps_deliverWithDurability s attempt
  | remote s => exact keeps_originRemoteSend s
  | inbound presented => exact keeps_runInbound presented

end Sending

/-! ### The steps -/

section Steps

variable {s s' : Store} {i j n : Nat} {o o' : Own} {id : String} {v v' : View}

structure Store.Frame (digest : String → String) (i : Nat) (s s' : Store) : Prop where
  dead : s'.dead = s.dead
  attempted : ∀ j, j ≠ i → (j ∈ s'.attempted ↔ j ∈ s.attempted)
  holder : ∀ j, j ≠ i → ∀ id, s'.holder id = some j ↔ s.holder id = some j
  view : ∀ j, j ≠ i → ∀ id, s.holder id = some j → s'.view digest id = s.view digest id

theorem Own.Agrees.frame (h : o.Agrees digest s j) (hframe : Store.Frame digest i s s') (hj : j ≠ i) :
    o.Agrees digest s' j where
  sound := h.sound
  attempted hin := h.attempted ((hframe.attempted j hj).mp hin)
  started hin := (hframe.attempted j hj).mpr (h.started hin)
  holds id := (hframe.holder j hj id).trans (h.holds id)
  view id v hclaim := (hframe.view j hj id ((h.holds id).mpr ⟨v, hclaim⟩)).trans (h.view id v hclaim)

def Keeping (digest : String → String) (n i : Nat) (key : Call) (s : Store) (o : Own)
    (e : Exchange SendQ SendA) (s' : Store) : Prop :=
  s'.Known digest n ∧ s.Frame digest i s' ∧ ∃ o', o.trans digest key e o' ∧ o'.Agrees digest s' i

/-- A step that changes the view of the id whose claim is held. -/
structure Puts (digest : String → String) (i : Nat) (id : String) (v' : View) (s s' : Store) : Prop where
  holder : s'.holder = s.holder
  dead : s'.dead = s.dead
  attempted : ∀ j, j ≠ i → (j ∈ s'.attempted ↔ j ∈ s.attempted)
  view : s'.view digest = Function.update (s.view digest) id v'

theorem Puts.frame (h : Puts digest i id v' s s') (hheld : s.holder id = some i) : s.Frame digest i s' where
  dead := h.dead
  attempted := h.attempted
  holder j _ id' := by rw [h.holder]
  view j hj id' hid' := by
    rw [h.view, Function.update_of_ne]
    rintro rfl
    exact hj (Option.some.inj (hid'.symm.trans hheld))

theorem Puts.known (h : Puts digest i id v' s s') (hknown : s.Known digest n) (hheld : s.holder id = some i)
    (hone : v'.One) (hlog : s'.log.tail = none)
    (hevents : ∀ ev, s'.events.tail = some ev → ev.bodyDigest = none) : s'.Known digest n where
  logTail := hlog
  eventsTail := hevents
  holders id' j hj := by
    rw [h.holder] at hj
    rw [h.dead]
    exact hknown.holders id' j hj
  attempted j hj := by
    by_cases hji : j = i
    · exact hji ▸ (hknown.holders id i hheld).1
    · exact hknown.attempted j ((h.attempted j hji).mp hj)
  dead j hj := hknown.dead j (h.dead ▸ hj)
  one id' := by
    rw [h.view]
    by_cases hid : id' = id
    · rw [hid, Function.update_self]
      exact hone
    · rw [Function.update_of_ne hid]
      exact hknown.one id'
  settled id' hid' := by
    rw [h.holder] at hid'
    rw [h.view, Function.update_of_ne]
    · exact hknown.settled id' hid'
    · rintro rfl
      rw [hheld] at hid'
      cases hid'

theorem Puts.agrees (h : Puts digest i id v' s s') (hagrees : o.Agrees digest s i) (hclaim : o.claim = some (id, v))
    (hclaim' : o'.claim = some (id, v')) (hsound : o'.Sound) (hattempted : i ∈ s'.attempted ↔ o'.attempted = true) :
    o'.Agrees digest s' i where
  sound := hsound
  attempted := hattempted.mp
  started := hattempted.mpr
  holds id' := by
    rw [h.holder, hagrees.holds, hclaim, hclaim']
    simp only [Option.some.injEq, Prod.mk.injEq, exists_and_left, exists_eq', and_true]
  view id' w hw := by
    rw [hclaim'] at hw
    cases hw
    rw [h.view, Function.update_self]

structure Spares (digest : String → String) (s s' : Store) : Prop where
  holder : s'.holder = s.holder
  dead : s'.dead = s.dead
  attempted : s'.attempted = s.attempted
  view : s'.view digest = s.view digest

theorem Spares.refl : Spares digest s s := ⟨rfl, rfl, rfl, rfl⟩

theorem Spares.known (h : Spares digest s s') (hknown : s.Known digest n) (hlog : s'.log.tail = none)
    (hevents : ∀ ev, s'.events.tail = some ev → ev.bodyDigest = none) : s'.Known digest n where
  logTail := hlog
  eventsTail := hevents
  holders := by
    rw [h.holder, h.dead]
    exact hknown.holders
  attempted := by
    rw [h.attempted]
    exact hknown.attempted
  dead := by
    rw [h.dead]
    exact hknown.dead
  one := by
    rw [h.view]
    exact hknown.one
  settled := by
    rw [h.holder, h.view]
    exact hknown.settled

theorem Spares.frame (h : Spares digest s s') : s.Frame digest i s' where
  dead := h.dead
  attempted j _ := by rw [h.attempted]
  holder j _ id := by rw [h.holder]
  view j _ id _ := by rw [h.view]

theorem Spares.agrees (h : Spares digest s s') (hagrees : o.Agrees digest s i) : o.Agrees digest s' i where
  sound := hagrees.sound
  attempted := by
    rw [h.attempted]
    exact hagrees.attempted
  started := by
    rw [h.attempted]
    exact hagrees.started
  holds := by
    rw [h.holder]
    exact hagrees.holds
  view := by
    rw [h.view]
    exact hagrees.view

variable {key : Call} {env : Envelope} {ev : DispositionEvent}

theorem keeping_same {e : Exchange SendQ SendA} (hknown : s.Known digest n) (hagrees : o.Agrees digest s i)
    (htrans : o.trans digest key e o) : Keeping digest n i key s o e s :=
  ⟨hknown, Spares.refl.frame, o, htrans, hagrees⟩

theorem view_appendEnvelope (htail : s.log.tail = none) {w : Written} (hw : w ≠ .unterminated) :
    Store.view digest { s with log := s.log.append env w } =
      Function.update (s.view digest) env.correlationId
        (if w = .whole then (s.view digest env.correlationId).log (digest env.body)
          else s.view digest env.correlationId) := by
  have hclosed : s.log.closed = s.log.rows := by
    unfold JsonlFile.closed
    rw [htail]
    exact List.append_nil _
  funext id
  cases w with
  | unterminated => exact absurd rfl hw
  | whole =>
      rw [if_pos rfl]
      unfold Store.view JsonlFile.append
      dsimp only
      rw [hclosed, loggedOf_snoc]
      by_cases hid : id = env.correlationId
      · subst hid
        rw [Function.update_self, if_pos rfl]
        rfl
      · rw [Function.update_of_ne hid, if_neg (Ne.symm hid), List.append_nil]
  | nothing =>
      rw [if_neg (by decide), Function.update_eq_self]
      rfl
  | part =>
      rw [if_neg (by decide), Function.update_eq_self]
      unfold Store.view JsonlFile.append
      dsimp only
      rw [hclosed]

theorem tail_append_log (htail : s.log.tail = none) {w : Written} (hw : w ≠ .unterminated) :
    (s.log.append env w).tail = none := by
  cases w with
  | unterminated => exact absurd rfl hw
  | nothing => exact htail
  | part => rfl
  | whole => rfl

theorem keeping_appendEnvelope {result : AppendResult} (hknown : s.Known digest n)
    (hagrees : o.Agrees digest s i) (hallowed : o.allowed digest key (.appendEnvelope env))
    (hw : result.written ≠ .unterminated) :
    Keeping digest n i key s o ⟨.appendEnvelope env, result⟩
      { s with log := s.log.append env result.written } := by
  obtain ⟨v, hclaim, hpending, hlogged, hall⟩ := hallowed
  have hheld := (hagrees.holds env.correlationId).mpr ⟨v, hclaim⟩
  have hview := hagrees.view _ v hclaim
  have hsettled := hagrees.sound.settled _ v hclaim hpending
  have hsettled' : (if result.written = .whole then v.log (digest env.body) else v).Settled := by
    split_ifs
    · exact hsettled.log hlogged hall
    · exact hsettled
  have hputs : Puts digest i env.correlationId (if result.written = .whole then v.log (digest env.body) else v)
      s { s with log := s.log.append env result.written } :=
    ⟨rfl, rfl, fun _ _ => Iff.rfl, by rw [view_appendEnvelope hknown.logTail hw, hview]⟩
  have hclaim' : (if result.written = .whole then o.put (·.log (digest env.body)) else o).claim =
      some (env.correlationId, if result.written = .whole then v.log (digest env.body) else v) := by
    split_ifs
    · exact congrArg (Option.map _) hclaim
    · exact hclaim
  have hown : (if result.written = .whole then o.put (·.log (digest env.body)) else o).pending = none ∧
      ((if result.written = .whole then o.put (·.log (digest env.body)) else o).attempted = true ↔
        o.attempted = true) := by
    split_ifs <;> exact ⟨hpending, Iff.rfl⟩
  refine ⟨?_, hputs.frame hheld, _, rfl, hputs.agrees hagrees hclaim hclaim' ⟨?_, ?_⟩ ?_⟩
  · exact hputs.known hknown hheld hsettled'.toOne (tail_append_log hknown.logTail hw) hknown.eventsTail
  · intro id w hw' _
    rw [hclaim'] at hw'
    cases hw'
    exact hsettled'
  · intro id w d _ hd
    rw [hown.1] at hd
    cases hd
  · exact ⟨fun hin => hown.2.mpr (hagrees.attempted hin), fun hat => hagrees.started (hown.2.mp hat)⟩

theorem deliveredOf_of_none (hev : ev.bodyDigest = none) : deliveredOf id [ev] = [] := by
  rw [deliveredOf_singleton, hev]
  split_ifs <;> rfl

theorem deliveredOf_closed (hknown : s.Known digest n) :
    deliveredOf id s.events.closed = deliveredOf id s.events.rows := by
  unfold JsonlFile.closed
  rw [deliveredOf_append]
  cases htail : s.events.tail with
  | none => exact List.append_nil _
  | some ev => rw [Option.toList_some, deliveredOf_of_none (hknown.eventsTail ev htail), List.append_nil]

/-- An event that is not a delivered one changes no view, however much of it is written. -/
theorem keeping_appendEvent {result : AppendResult} (hknown : s.Known digest n)
    (hagrees : o.Agrees digest s i) (hev : ev.bodyDigest = none) :
    Keeping digest n i key s o ⟨.appendEvent ev, result⟩
      { s with events := s.events.append ev result.written } := by
  have hrows : ∀ id, deliveredOf id (s.events.append ev result.written).rows = deliveredOf id s.events.rows := by
    intro id
    cases result.written with
    | nothing => rfl
    | part => exact deliveredOf_closed hknown
    | unterminated => exact deliveredOf_closed hknown
    | whole =>
        change deliveredOf id (s.events.closed ++ [ev]) = _
        rw [deliveredOf_append, deliveredOf_of_none hev, List.append_nil, deliveredOf_closed hknown]
  have htail : ∀ ev', (s.events.append ev result.written).tail = some ev' → ev'.bodyDigest = none := by
    intro ev' hev'
    cases hw : result.written with
    | nothing => exact hknown.eventsTail ev' (by rw [hw] at hev'; exact hev')
    | unterminated =>
        rw [hw] at hev'
        cases hev'
        exact hev
    | _ =>
        rw [hw] at hev'
        cases hev'
  have hspares : Spares digest s { s with events := s.events.append ev result.written } := by
    refine ⟨rfl, rfl, rfl, funext fun id => ?_⟩
    unfold Store.view
    dsimp only
    rw [hrows]
  refine ⟨hspares.known hknown hknown.logTail htail, hspares.frame, o, ?_, hspares.agrees hagrees⟩
  unfold Own.trans
  simp only [hev]

theorem keeping_delivered {d : String} (hknown : s.Known digest n) (hagrees : o.Agrees digest s i)
    (hallowed : o.allowed digest key (.appendEvent ev)) (hev : ev.bodyDigest = some d) :
    Keeping digest n i key s o ⟨.appendEvent ev, AppendResult.ok⟩
      { s with events := s.events.append ev .whole } := by
  obtain ⟨v, hclaim, hpending⟩ := hallowed d hev
  obtain ⟨hone, haccepted, hattempted⟩ := hagrees.sound.pending _ v d hclaim hpending
  have hheld := (hagrees.holds ev.correlationId).mpr ⟨v, hclaim⟩
  have hview := hagrees.view _ v hclaim
  have hputs : Puts digest i ev.correlationId (v.stamp d) s { s with events := s.events.append ev .whole } := by
    refine ⟨rfl, rfl, fun _ _ => Iff.rfl, funext fun id => ?_⟩
    unfold Store.view JsonlFile.append
    dsimp only
    rw [deliveredOf_append, deliveredOf_closed hknown, deliveredOf_singleton]
    by_cases hid : id = ev.correlationId
    · subst hid
      rw [if_pos rfl, hev, Function.update_self, ← hview]
      rfl
    · rw [if_neg (Ne.symm hid), Function.update_of_ne hid, List.append_nil]
  have hsettled := hone.stamp haccepted
  have hclaim' : (o.put (·.stamp d)).claim = some (ev.correlationId, v.stamp d) :=
    congrArg (Option.map _) hclaim
  refine ⟨?_, hputs.frame hheld, { o.put (·.stamp d) with pending := none }, ?_,
    hputs.agrees hagrees hclaim hclaim' ⟨?_, nofun⟩ ?_⟩
  · exact hputs.known hknown hheld hsettled.toOne hknown.logTail nofun
  · unfold Own.trans
    simp only [hev]
  · intro id w hw _
    rw [hclaim'] at hw
    cases hw
    exact hsettled
  · exact ⟨hagrees.attempted, hagrees.started⟩

theorem keeping_attempt {message : String} {outcome : Outcome} (hknown : s.Known digest n)
    (hagrees : o.Agrees digest s i) (hallowed : o.allowed digest key (.attempt id message)) :
    Keeping digest n i key s o ⟨.attempt id message, outcome⟩ (s.attempt i id message outcome.accepted) := by
  obtain ⟨v, hclaim, hpending, hdelivered, hlogged, -⟩ := hallowed
  have hheld := (hagrees.holds id).mpr ⟨v, hclaim⟩
  have hview := hagrees.view _ v hclaim
  have hsettled := hagrees.sound.settled _ v hclaim hpending
  have haccepted : v.accepted = [] := by
    by_contra hne
    exact hsettled.stamped hne hdelivered
  have hothers : ∀ j, j ≠ i → (j ∈ i :: s.attempted ↔ j ∈ s.attempted) := fun j hj => by simp [hj]
  cases hacc : outcome.accepted with
  | false =>
      have hputs : Puts digest i id v s (s.attempt i id message false) := by
        refine ⟨rfl, rfl, hothers, ?_⟩
        rw [← hview, Function.update_eq_self]
        rfl
      refine ⟨?_, hputs.frame hheld, { o with attempted := true }, ?_,
        hputs.agrees hagrees hclaim hclaim ⟨hagrees.sound.settled, ?_⟩ ?_⟩
      · exact hputs.known hknown hheld hsettled.toOne hknown.logTail hknown.eventsTail
      · unfold Own.trans
        simp [hacc]
      · intro id w d _ hd
        exact absurd (hpending.symm.trans hd) nofun
      · exact ⟨fun _ => rfl, fun _ => List.mem_cons_self⟩
  | true =>
      have hall : ∀ d ∈ v.all, d = digest message :=
        hsettled.all_eq hlogged (by rw [hdelivered]; exact nofun)
      have hputs : Puts digest i id (v.accept (digest message)) s (s.attempt i id message true) := by
        refine ⟨rfl, rfl, hothers, funext fun id' => ?_⟩
        unfold Store.view Store.attempt acceptedOf
        dsimp only
        rw [if_pos rfl, List.filter_append, List.map_append, List.filter_singleton]
        by_cases hid : id' = id
        · subst hid
          rw [Function.update_self, ← hview, beq_self_eq_true]
          rfl
        · rw [Function.update_of_ne hid, beq_eq_false_iff_ne.mpr (Ne.symm hid)]
          exact congrArg _ (List.append_nil _)
      have hclaim' : (o.put (·.accept (digest message))).claim = some (id, v.accept (digest message)) :=
        congrArg (Option.map _) hclaim
      refine ⟨?_, hputs.frame hheld,
        { o.put (·.accept (digest message)) with attempted := true, pending := some (digest message) }, ?_,
        hputs.agrees hagrees hclaim hclaim' ⟨nofun, ?_⟩ ?_⟩
      · exact hputs.known hknown hheld (hsettled.toOne.accept haccepted hall) hknown.logTail hknown.eventsTail
      · unfold Own.trans
        simp [hacc]
      · intro id' w d hw hd
        rw [hclaim'] at hw
        cases hw
        cases hd
        refine ⟨hsettled.toOne.accept haccepted hall, ?_, rfl⟩
        unfold View.accept
        rw [haccepted]
        rfl
      · exact ⟨fun _ => rfl, fun _ => List.mem_cons_self⟩

theorem view_fits (hone : (s.view digest id).One) (hfits : Fits digest s id key) :
    (s.view digest id).Fits digest key := by
  cases key with
  | origin o attempt =>
      intro hlogged
      have hnone := hfits (find?_eq_none_iff.mpr hlogged)
      rw [recordedDigest_eq] at hnone
      exact List.head?_eq_none_iff.mp hnone
  | remote o =>
      intro hlogged d hd
      cases hhead : (s.view digest id).delivered.head? with
      | none =>
          rw [List.head?_eq_none_iff.mp hhead] at hd
          cases hd
      | some d₁ =>
          have hmem := View.mem_all.mpr (.inr (.inl (List.mem_of_mem_head? hhead)))
          rw [hone.same d (View.mem_all.mpr (.inr (.inl hd))) d₁ hmem]
          exact hfits (find?_eq_none_iff.mpr hlogged) d₁ (recordedDigest_eq.trans hhead)
  | inbound presented =>
      cases presented with
      | parsed envelope =>
          intro d hd
          cases hfind : s.log.rows.find? (·.correlationId == id) with
          | none =>
              have hnil : (s.view digest id).logged = [] := find?_eq_none_iff.mp hfind
              rw [hnil] at hd
              cases hd
          | some prior =>
              have hmem : digest prior.body ∈ (s.view digest id).logged := mem_loggedOf_of_find? hfind
              rw [hone.same d (View.mem_all.mpr (.inl hd)) _ (View.mem_all.mpr (.inl hmem))]
              exact hfits prior hfind
      | _ => trivial

theorem keeping_acquire (hknown : s.Known digest n) (hagrees : o.Agrees digest s i) (hfree : o = {})
    (hi : i < n) (hlive : i ∉ s.dead) (hnone : s.holder id = none) (hfits : Fits digest s id key) :
    Keeping digest n i key s o ⟨.acquireClaim id, true⟩ (s.setHolder id (some i)) := by
  subst hfree
  have hothers : ∀ j, j ≠ i → ∀ id', (s.setHolder id (some i)).holder id' = some j ↔ s.holder id' = some j := by
    intro j hj id'
    unfold Store.setHolder
    dsimp only
    split_ifs with hid
    · rw [hid, hnone]
      exact ⟨fun h => absurd (Option.some.inj h).symm hj, nofun⟩
    · rfl
  refine ⟨⟨hknown.logTail, hknown.eventsTail, fun id' j hj => ?_, hknown.attempted, hknown.dead, hknown.one,
    fun id' hid' => ?_⟩, ⟨rfl, fun _ _ => Iff.rfl, hothers, fun _ _ _ _ => rfl⟩,
    { claim := some (id, s.view digest id) }, ⟨_, hknown.settled id hnone, view_fits (hknown.one id) hfits, rfl⟩, ?_⟩
  · by_cases hji : j = i
    · subst hji
      exact ⟨hi, hlive⟩
    · exact hknown.holders id' j ((hothers j hji id').mp hj)
  · apply hknown.settled id'
    unfold Store.setHolder at hid'
    dsimp only at hid'
    split_ifs at hid'
    exact hid'
  · refine ⟨⟨fun id' v hv _ => ?_, nofun⟩, hagrees.attempted, hagrees.started, fun id' => ?_, fun id' v hv => ?_⟩
    · cases hv
      exact hknown.settled id hnone
    · unfold Store.setHolder
      dsimp only
      split_ifs with hid
      · subst hid
        exact ⟨fun _ => ⟨_, rfl⟩, fun _ => rfl⟩
      · rw [hagrees.holds]
        refine ⟨nofun, ?_⟩
        rintro ⟨v, hv⟩
        cases hv
        exact absurd rfl hid
    · cases hv
      rfl

theorem keeping_drop (hknown : s.Known digest n) (hagrees : o.Agrees digest s i)
    (hallowed : o.allowed digest key (.dropClaim id)) :
    Keeping digest n i key s o ⟨.dropClaim id, ()⟩ (s.setHolder id none) := by
  obtain ⟨v, hclaim, hpending⟩ := hallowed
  have hheld := (hagrees.holds id).mpr ⟨v, hclaim⟩
  have hothers : ∀ j, j ≠ i → ∀ id', (s.setHolder id none).holder id' = some j ↔ s.holder id' = some j := by
    intro j hj id'
    unfold Store.setHolder
    dsimp only
    split_ifs with hid
    · rw [hid, hheld]
      exact ⟨nofun, fun h => absurd (Option.some.inj h).symm hj⟩
    · rfl
  have hdropped : ∀ id' j, (s.setHolder id none).holder id' = some j → s.holder id' = some j := by
    intro id' j hj
    unfold Store.setHolder at hj
    dsimp only at hj
    split_ifs at hj
    exact hj
  refine ⟨⟨hknown.logTail, hknown.eventsTail, fun id' j hj => hknown.holders id' j (hdropped id' j hj),
    hknown.attempted, hknown.dead, hknown.one, fun id' hid' => ?_⟩,
    ⟨rfl, fun _ _ => Iff.rfl, hothers, fun _ _ _ _ => rfl⟩, { o with claim := none }, rfl,
    ⟨nofun, nofun⟩, hagrees.attempted, hagrees.started, fun id' => ?_, nofun⟩
  · by_cases hid : id' = id
    · subst hid
      change (s.view digest id').Settled
      rw [hagrees.view _ v hclaim]
      exact hagrees.sound.settled _ v hclaim hpending
    · apply hknown.settled id'
      unfold Store.setHolder at hid'
      dsimp only at hid'
      rwa [if_neg hid] at hid'
  · refine ⟨fun hid' => ?_, nofun⟩
    -- the one claim that the send had is dropped
    have hold := hdropped id' i hid'
    obtain ⟨w, hw⟩ := (hagrees.holds id').mp hold
    rw [hclaim] at hw
    cases hw
    unfold Store.setHolder at hid'
    dsimp only at hid'
    rw [if_pos rfl] at hid'
    cases hid'

end Steps

/-! ### Runs -/

section Runs

variable {s s' : Store} {i n : Nat} {p : Pool Store (Call.run digest)}

theorem known_start (hknown : s.Known digest n) :
    s.Known digest (n + 1) ∧ Own.Agrees digest s n {} := by
  refine ⟨⟨hknown.logTail, hknown.eventsTail, fun id j hj => ?_, fun j hj => ?_, fun j hj => ?_, hknown.one,
    hknown.settled⟩, ⟨⟨nofun, nofun⟩, fun hin => ?_, nofun, fun id => ⟨fun hid => ?_, nofun⟩, nofun⟩⟩
  · exact ⟨Nat.lt_succ_of_lt (hknown.holders id j hj).1, (hknown.holders id j hj).2⟩
  · exact Nat.lt_succ_of_lt (hknown.attempted j hj)
  · exact Nat.lt_succ_of_lt (hknown.dead j hj)
  · exact absurd (hknown.attempted n hin) (lt_irrefl n)
  · exact absurd (hknown.holders id n hid).1 (lt_irrefl n)

/-- The death of a send before its attempt leaves settled what it held. -/
theorem known_crash {o : Own} (hknown : s.Known digest n) (hi : i < n) (hattempted : i ∉ s.attempted)
    (hagrees : i ∈ s.dead ∨ o.Agrees digest s i) : (s.crash i).Known digest n := by
  refine ⟨hknown.logTail, hknown.eventsTail, fun id j hj => ?_, hknown.attempted, fun j hj => ?_, hknown.one,
    fun id hid => ?_⟩
  · unfold Store.crash at hj ⊢
    dsimp only at hj ⊢
    split_ifs at hj with hheld
    have hold := hknown.holders id j hj
    refine ⟨hold.1, fun hdead => ?_⟩
    rcases List.mem_cons.mp hdead with rfl | hdead
    · exact hheld hj
    · exact hold.2 hdead
  · rcases List.mem_cons.mp hj with rfl | hj
    · exact hi
    · exact hknown.dead j hj
  · change (s.view digest id).Settled
    unfold Store.crash at hid
    dsimp only at hid
    split_ifs at hid with hheld
    · rcases hagrees with hdead | hagrees
      · exact absurd hdead (hknown.holders id i hheld).2
      · obtain ⟨v, hclaim⟩ := (hagrees.holds id).mp hheld
        rw [hagrees.view id v hclaim]
        cases hpending : o.pending with
        | none => exact hagrees.sound.settled id v hclaim hpending
        | some d =>
            obtain ⟨-, -, hstarted⟩ := hagrees.sound.pending id v d hclaim hpending
            exact absurd (hagrees.started hstarted) hattempted
    · exact hknown.settled id hid

theorem frame_crash : s.Frame digest i { s.crash i with dead := s.dead } where
  dead := rfl
  attempted _ _ := Iff.rfl
  holder j hj id := by
    unfold Store.crash
    dsimp only
    split_ifs with hheld
    · rw [hheld]
      exact ⟨nofun, fun h => absurd (Option.some.inj h).symm hj⟩
    · rfl
  view _ _ _ _ := rfl

theorem agrees_crash {j : Nat} {o : Own} (h : j ∈ s.dead ∨ o.Agrees digest s j) :
    j ∈ (s.crash i).dead ∨ o.Agrees digest (s.crash i) j := by
  by_cases hj : j = i
  · exact .inl (hj ▸ List.mem_cons_self)
  · rcases h with hdead | hagrees
    · exact .inl (List.mem_cons_of_mem _ hdead)
    · have hframe : s.Frame digest i { s.crash i with dead := s.dead } := frame_crash
      have hold := hagrees.frame hframe hj
      exact .inr ⟨hold.sound, hold.attempted, hold.started, hold.holds, hold.view⟩

theorem tracking_lawful : (tracking digest).Lawful (sends digest) (Careful digest) where
  programs := Sending.keeps_run
  start n s hknown := ⟨(known_start hknown).1, .inr (known_start hknown).2⟩
  move p s' h hmove _ := by
    obtain ⟨i, f, hf, hattempted, rfl⟩ := hmove
    obtain ⟨o, hagrees, -⟩ := h.fibers i f hf
    exact ⟨known_crash h.known (List.getElem?_eq_some_iff.mp hf).1 hattempted hagrees,
      fun j o hj => agrees_crash hj⟩
  answer p i f e s' o h hf hagrees hallowed hanswers hcareful := by
    obtain ⟨hlive, hanswers⟩ := hanswers
    have hagrees := hagrees.resolve_left hlive
    suffices hkeeping : Keeping digest p.fibers.length i f.key p.shared o e s' by
      obtain ⟨hknown, hframe, o', htrans, hown⟩ := hkeeping
      refine ⟨hknown, ⟨o', htrans, .inr hown⟩, fun j hj oj hoj => ?_⟩
      rcases hoj with hdead | hoj
      · exact .inl (hframe.dead ▸ hdead)
      · exact .inr (hoj.frame hframe hj)
    obtain ⟨q, a⟩ := e
    cases q with
    | acquireClaim id =>
        cases a with
        | true =>
            obtain ⟨hnone, rfl⟩ := hanswers
            exact keeping_acquire h.known hagrees hallowed (List.getElem?_eq_some_iff.mp hf).1 hlive hnone
              (hcareful f hf)
        | false =>
            obtain rfl := hanswers
            exact keeping_same h.known hagrees rfl
    | dropClaim id =>
        obtain rfl := hanswers
        exact keeping_drop h.known hagrees hallowed
    | readLog =>
        obtain ⟨hread, rfl⟩ := hanswers
        cases a with
        | none => exact hcareful.elim
        | some rows =>
            obtain rfl : rows = p.shared.log.rows := Option.some.inj (hread.resolve_left nofun)
            refine keeping_same h.known hagrees ⟨rfl, fun id v hclaim => ?_⟩
            rw [← hagrees.view id v hclaim]
            rfl
    | readEvents =>
        obtain ⟨hread, rfl⟩ := hanswers
        cases a with
        | none => exact hcareful.elim
        | some events =>
            obtain rfl : events = p.shared.events.rows := Option.some.inj (hread.resolve_left nofun)
            refine keeping_same h.known hagrees ⟨rfl, fun id v hclaim => ?_⟩
            rw [← hagrees.view id v hclaim]
            rfl
    | appendEnvelope env =>
        obtain rfl := hanswers
        exact keeping_appendEnvelope h.known hagrees hallowed hcareful
    | appendEvent ev =>
        obtain ⟨hok, rfl⟩ := hanswers
        cases hev : ev.bodyDigest with
        | none => exact keeping_appendEvent h.known hagrees hev
        | some d =>
            have hkind : ev.kind = .delivered := by
              cases ev <;> first | rfl | cases hev
            obtain rfl := hok hkind
            exact keeping_delivered h.known hagrees hallowed hev
    | attempt id message =>
        obtain rfl := hanswers
        exact keeping_attempt h.known hagrees hallowed
    | _ =>
        obtain rfl := hanswers
        exact keeping_same h.known hagrees rfl

def ReadsSucceed (p : Pool Store (Call.run digest)) : Prop :=
  ∀ (i : Nat) f, p.fibers[i]? = some f → (⟨.readLog, none⟩ : Exchange SendQ SendA) ∉ f.asked ∧
    (⟨.readEvents, none⟩ : Exchange SendQ SendA) ∉ f.asked

theorem ReadsSucceed.step {a : PoolAct Call SendQ SendA} {p' : Pool Store (Call.run digest)}
    (h : ReadsSucceed p) (hstep : Pool.Step (sends digest) p a p') (ha : Careful digest p a) :
    ReadsSucceed p' := by
  intro i f' hf'
  rcases hstep.fiber hf' with hold | ⟨f, q, b, hf, rfl, -, hasked⟩ | hnew
  · exact h i f' hold
  · obtain ⟨hlog, hevents⟩ := h i f hf
    rw [hasked]
    refine ⟨fun hmem => ?_, fun hmem => ?_⟩
    · rcases List.mem_append.mp hmem with hold | hnow
      · exact hlog hold
      · cases List.mem_singleton.mp hnow
        exact ha
    · rcases List.mem_append.mp hmem with hold | hnow
      · exact hevents hold
      · cases List.mem_singleton.mp hnow
        exact ha
  · rw [hnew]
    exact ⟨nofun, nofun⟩

theorem readsSucceed_of_careful (hp : p.Reachable (sends digest) (Careful digest) {}) : ReadsSucceed p :=
  hp.invariant nofun fun _ _ _ h hstep ha => h.step hstep ha

theorem known_empty : Store.Known digest 0 {} where
  logTail := rfl
  eventsTail := nofun
  holders := nofun
  attempted := nofun
  dead := nofun
  one _ := ⟨Nat.zero_le _, Nat.zero_le _, nofun⟩
  settled _ _ := ⟨⟨Nat.zero_le _, Nat.zero_le _, nofun⟩, fun h => absurd rfl h⟩

end Runs

/-! ### Runs of two sends -/

def hello : Envelope where
  correlationId := "id"
  authoredAt := 0
  expiresAt := 1000
  target := "agent"
  origin := "peer"
  body := "hello"

/-- An inbound send up to its attempt, which is accepted, with what it reads of the events. -/
def presented (read : Option (List DispositionEvent)) : List (Exchange SendQ SendA) :=
  [⟨.now, (5 : Int64)⟩, ⟨.resolveTarget "agent", Resolved.target true true⟩, ⟨.acquireClaim "id", true⟩,
    ⟨.readEvents, read⟩, ⟨.receivePath, true⟩, ⟨.now, (5 : Int64)⟩,
    ⟨.appendEvent (.attempted "id" 5), AppendResult.ok⟩,
    ⟨.attempt "id" "hello", Outcome.receipt true .no⟩]

def stamped : List (Exchange SendQ SendA) :=
  [⟨.now, (6 : Int64)⟩, ⟨.appendEvent (.delivered "id" 6 "hello"), AppendResult.ok⟩, ⟨.dropClaim "id", ()⟩]

theorem presented_leads {read : Option (List DispositionEvent)} (hread : read = none ∨ read = some []) :
    (Call.run id (.inbound (.parsed hello))).Leads (presented read ++ stamped) (.pure 0) := by
  refine .ask (A := SendA) (q := .now) (5 : Int64) ?_
  refine .ask (A := SendA) (q := .resolveTarget "agent") (Resolved.target true true) ?_
  refine .ask (A := SendA) (q := .acquireClaim "id") true ?_
  refine .ask (A := SendA) (q := .readEvents) read ?_
  rcases hread with rfl | rfl
  all_goals
    refine .ask (A := SendA) (q := .receivePath) true ?_
    refine .ask (A := SendA) (q := .now) (5 : Int64) ?_
    refine .ask (A := SendA) (q := .appendEvent (.attempted "id" 5)) AppendResult.ok ?_
    refine .ask (A := SendA) (q := .attempt "id" "hello") (Outcome.receipt true .no) ?_
    refine .ask (A := SendA) (q := .now) (6 : Int64) ?_
    refine .ask (A := SendA) (q := .appendEvent (.delivered "id" 6 "hello")) AppendResult.ok ?_
    exact .ask (A := SendA) (q := .dropClaim "id") () .here

theorem presented_serves {s : Store} {i : Nat} {read : Option (List DispositionEvent)} (hlive : i ∉ s.dead)
    (hfree : s.holder "id" = none) (hread : read = none ∨ read = some s.events.rows) :
    ∃ s', Pool.Serves (sends id) i s (presented read ++ stamped) s' ∧
      s'.accepted = s.accepted ++ [("id", "hello")] ∧ s'.dead = s.dead ∧ s'.holder "id" = none ∧
        s'.log = s.log :=
  ⟨_, ⟨_, ⟨hlive, rfl⟩, _, ⟨hlive, rfl⟩, _, ⟨hlive, hfree, rfl⟩, _, ⟨hlive, hread, rfl⟩, _, ⟨hlive, rfl⟩, _,
    ⟨hlive, rfl⟩, _, ⟨hlive, nofun, rfl⟩, _, ⟨hlive, rfl⟩, _, ⟨hlive, rfl⟩, _, ⟨hlive, fun _ => rfl, rfl⟩, _,
    ⟨hlive, rfl⟩, rfl⟩, rfl, rfl, rfl, rfl⟩

def other : OriginSend where
  rawTarget := "agent"
  message := "other"
  expiresMs := 1000
  suppliedCorrelationId := some "id"
  origin := "local"
  sender := none

def otherSent : List (Exchange SendQ SendA) :=
  [⟨.now, (7 : Int64)⟩, ⟨.acquireClaim "id", true⟩, ⟨.readLog, some []⟩,
    ⟨.appendEnvelope (other.envelope "id" 7), AppendResult.ok⟩, ⟨.now, (7 : Int64)⟩,
    ⟨.appendEvent (.attempted "id" 7), AppendResult.ok⟩,
    ⟨.attempt "id" "other", Outcome.receipt true .no⟩, ⟨.now, (7 : Int64)⟩,
    ⟨.appendEvent (.delivered "id" 7 "other"), AppendResult.ok⟩, ⟨.dropClaim "id", ()⟩]

theorem otherSent_leads : (Call.run id (.origin other .lane)).Leads otherSent (.pure 0) := by
  refine .ask (A := SendA) (q := .now) (7 : Int64) ?_
  refine .ask (A := SendA) (q := .acquireClaim "id") true ?_
  refine .ask (A := SendA) (q := .readLog) (some []) ?_
  refine .ask (A := SendA) (q := .appendEnvelope _) AppendResult.ok ?_
  refine .ask (A := SendA) (q := .now) (7 : Int64) ?_
  refine .ask (A := SendA) (q := .appendEvent (.attempted "id" 7)) AppendResult.ok ?_
  refine .ask (A := SendA) (q := .attempt "id" "other") (Outcome.receipt true .no) ?_
  refine .ask (A := SendA) (q := .now) (7 : Int64) ?_
  refine .ask (A := SendA) (q := .appendEvent (.delivered "id" 7 "other")) AppendResult.ok ?_
  exact .ask (A := SendA) (q := .dropClaim "id") () .here

theorem otherSent_serves {s : Store} {i : Nat} (hlive : i ∉ s.dead) (hfree : s.holder "id" = none)
    (hlog : s.log = {}) : ∃ s', Pool.Serves (sends id) i s otherSent s' ∧
      s'.accepted = s.accepted ++ [("id", "other")] :=
  ⟨_, ⟨_, ⟨hlive, rfl⟩, _, ⟨hlive, hfree, rfl⟩, _, ⟨hlive, .inr (hlog ▸ rfl), rfl⟩, _, ⟨hlive, rfl⟩, _,
    ⟨hlive, rfl⟩, _, ⟨hlive, nofun, rfl⟩, _, ⟨hlive, rfl⟩, _, ⟨hlive, rfl⟩, _, ⟨hlive, fun _ => rfl, rfl⟩, _,
    ⟨hlive, rfl⟩, rfl⟩, rfl⟩

/-- A send from here does not look for what an inbound send has delivered under its id. -/
theorem originSend_deliversAgain : ∃ p : Pool Store (Call.run id),
    p.Reachable (sends id) (fun _ _ => True) {} ∧ p.shared.accepted = [("id", "hello"), ("id", "other")] ∧
      ¬ OneBody id p := by
  have hstart : Pool.Reachable (sends id) (fun _ _ => True) {}
      ⟨{}, [.new (.inbound (.parsed hello)), .new (.origin other .lane)]⟩ :=
    (Pool.Reachable.init.step (.start _) trivial).step (.start _) trivial
  obtain ⟨s₁, hserves₁, haccepted₁, hdead₁, hfree₁, hlog₁⟩ :=
    presented_serves (s := {}) (i := 0) List.not_mem_nil rfl (.inr rfl)
  obtain ⟨f, -, -, -, hp⟩ := hstart.serve rfl (presented_leads (.inr rfl)) hserves₁ fun _ _ _ => trivial
  obtain ⟨s₂, hserves₂, haccepted₂⟩ :=
    otherSent_serves (i := 1) (hdead₁ ▸ List.not_mem_nil) hfree₁ hlog₁
  obtain ⟨g, -, -, -, hp⟩ := hp.serve rfl otherSent_leads hserves₂ fun _ _ _ => trivial
  have haccepted : s₂.accepted = [("id", "hello"), ("id", "other")] := by
    rw [haccepted₂, haccepted₁]
    rfl
  refine ⟨_, hp, haccepted, fun hone => ?_⟩
  have hlength := (hone.views "id").accepted
  unfold Store.view at hlength
  dsimp only at hlength
  rw [haccepted] at hlength
  exact absurd hlength (by decide)

end QuorumDispatch.Dispositions
