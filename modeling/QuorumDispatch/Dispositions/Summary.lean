import QuorumDispatch.Dispositions.Record
import QuorumDispatch.Lib.FirstWins

/-!
The summary view of the dispositions: one row for each correlation id, folded from the events of
the id and joined with its envelope.
-/

namespace QuorumDispatch.Dispositions

open Lib

/-- A row of `log.jsonl`. -/
structure Envelope where
  v : UInt32 := 1
  correlationId : String
  authoredAt : Int64
  expiresAt : Int64
  target : String
  origin : String
  sender : Option String := none
  body : String
deriving DecidableEq, Repr

inductive SummaryState where
  | pending
  | delivered
  | failed
  | expired
deriving DecidableEq, Repr

@[ext]
structure SummaryRecord where
  v : UInt32
  correlationId : String
  state : SummaryState
  attempts : UInt32
  lastEvent : Option EventKind
  lastAttemptAt : Option Int64
  firstDeliveredAt : Option Int64
  expiresAt : Option Int64
  authoredAt : Option Int64
  origin : Option String
deriving DecidableEq, Repr

def hasDelivered (events : List DispositionEvent) (correlationId : String) : Bool :=
  events.any fun e => e.kind == .delivered && e.correlationId == correlationId

/-- Delivered comes before expired, expired before failed, and failed before pending. -/
def deriveState (hasDelivered : Bool) (expiresAt : Option Int64) (lastEvent : Option EventKind)
    (now : Int64) : SummaryState :=
  if hasDelivered then .delivered
  else if expiresAt.any (· ≤ now) then .expired
  else if lastEvent = some .deliveryFailed then .failed
  else .pending

structure Fold where
  lastEvent : EventKind
  lastEventAt : Int64
  attempts : UInt32
  lastAttemptAt : Option Int64
  firstDeliveredAt : Option Int64
  hasDelivered : Bool
deriving DecidableEq, Repr

namespace Fold

def absorb (f : Fold) (ev : DispositionEvent) : Fold :=
  -- of two events of one time the later one is taken
  let f := if f.lastEventAt ≤ ev.createdAt then
      { f with lastEvent := ev.kind, lastEventAt := ev.createdAt }
    else f
  match ev.kind with
  | .attempted => { f with
      attempts := f.attempts + 1
      lastAttemptAt := some (f.lastAttemptAt.elim ev.createdAt (max · ev.createdAt)) }
  | .delivered => { f with
      hasDelivered := true
      firstDeliveredAt := some (f.firstDeliveredAt.elim ev.createdAt (min · ev.createdAt)) }
  | _ => f

def new (ev : DispositionEvent) : Fold :=
  absorb
    { lastEvent := ev.kind
      lastEventAt := Int64.minValue
      attempts := 0
      lastAttemptAt := none
      firstDeliveredAt := none
      hasDelivered := false } ev

def entry (ev : DispositionEvent) (old : Option Fold) : Fold := old.elim (new ev) (·.absorb ev)

end Fold

def summaryFor (id : String) (fold : Option Fold) (env : Option Envelope) (now : Int64) :
    SummaryRecord :=
  let lastEvent := fold.map (·.lastEvent)
  let expiresAt := env.map (·.expiresAt)
  { v := 1
    correlationId := id
    state := deriveState (fold.any (·.hasDelivered)) expiresAt lastEvent now
    attempts := (fold.map (·.attempts)).getD 0
    lastEvent := lastEvent
    lastAttemptAt := fold.bind (·.lastAttemptAt)
    firstDeliveredAt := fold.bind (·.firstDeliveredAt)
    expiresAt := expiresAt
    authoredAt := env.map (·.authoredAt)
    origin := env.map (·.origin) }

/-- The envelopes in their order, and behind them the ids that have no envelope. -/
def projectSummary (envelopes : List Envelope) (events : List DispositionEvent) (now : Int64) :
    List SummaryRecord :=
  let folds := OrderedMap.gather (·.correlationId) Fold.entry events
  let firsts := keepFirst (·.correlationId) ∅ envelopes
  let orphans := folds.order.filter (· ∉ seenAfter (·.correlationId) ∅ firsts)
  firsts.map (fun env => summaryFor env.correlationId (folds.get env.correlationId) (some env) now) ++
    orphans.map fun id => summaryFor id (folds.get id) none now

def projectOne (envelopes : List Envelope) (events : List DispositionEvent) (now : Int64)
    (correlationId : String) : Option SummaryRecord :=
  (projectSummary envelopes events now).find? (·.correlationId == correlationId)

/-! ### What a row is to say -/

def timesOf (kind : EventKind) (events : List DispositionEvent) : List Int64 :=
  (events.filter (·.kind = kind)).map (·.createdAt)

/-- The event of the kind and the time is the latest, and of the latest ones the last. -/
def LatestAt (events : List DispositionEvent) (kind : EventKind) (t : Int64) : Prop :=
  ∃ (i : Nat) (ev : DispositionEvent), events[i]? = some ev ∧ ev.kind = kind ∧ ev.createdAt = t ∧
    ∀ (j : Nat) (ev' : DispositionEvent), events[j]? = some ev' →
      (j ≤ i → ev'.createdAt ≤ t) ∧ (i < j → ev'.createdAt < t)

/-- The one of the times that is before all others in an order, if there is any. -/
def IsExtreme (le : Int64 → Int64 → Prop) (times : List Int64) : Option Int64 → Prop
  | none => times = []
  | some t => t ∈ times ∧ ∀ t' ∈ times, le t t'

/-- **A row says** what the events of its id and its first envelope say. -/
structure Summarizes (envelopes : List Envelope) (events : List DispositionEvent) (now : Int64)
    (r : SummaryRecord) : Prop where
  version : r.v = 1
  attempts : r.attempts =
    UInt32.ofNat (timesOf .attempted (events.filter (·.correlationId = r.correlationId))).length
  lastEvent : ∀ kind, r.lastEvent = some kind ↔
    ∃ t, LatestAt (events.filter (·.correlationId = r.correlationId)) kind t
  lastAttemptAt : IsExtreme (fun t t' => t' ≤ t)
    (timesOf .attempted (events.filter (·.correlationId = r.correlationId))) r.lastAttemptAt
  firstDeliveredAt : IsExtreme (fun t t' => t ≤ t')
    (timesOf .delivered (events.filter (·.correlationId = r.correlationId))) r.firstDeliveredAt
  expiresAt : r.expiresAt =
    (envelopes.find? (·.correlationId = r.correlationId)).map (·.expiresAt)
  authoredAt : r.authoredAt =
    (envelopes.find? (·.correlationId = r.correlationId)).map (·.authoredAt)
  origin : r.origin = (envelopes.find? (·.correlationId = r.correlationId)).map (·.origin)
  delivered : r.state = .delivered ↔
    ∃ ev ∈ events, ev.kind = .delivered ∧ ev.correlationId = r.correlationId
  expired : r.state = .expired ↔ r.state ≠ .delivered ∧ ∃ t, r.expiresAt = some t ∧ t ≤ now
  failed : r.state = .failed ↔
    r.state ≠ .delivered ∧ r.state ≠ .expired ∧ r.lastEvent = some .deliveryFailed

/-! ### The fold of one id -/

section Latest

variable {own : List DispositionEvent} {ev : DispositionEvent} {kind kind' : EventKind} {t t' : Int64}

theorem LatestAt.le (h : LatestAt own kind t) (hev : ev ∈ own) : ev.createdAt ≤ t := by
  obtain ⟨i, _, -, -, -, hall⟩ := h
  obtain ⟨j, hj⟩ := List.mem_iff_getElem?.mp hev
  rcases Nat.lt_or_ge i j with hlt | hle
  · exact Int64.le_of_lt ((hall j ev hj).2 hlt)
  · exact (hall j ev hj).1 hle

theorem LatestAt.ne_nil (h : LatestAt own kind t) : own ≠ [] := by
  rintro rfl
  obtain ⟨i, ev, hev, -⟩ := h
  cases hev

theorem LatestAt.unique (h : LatestAt own kind t) (h' : LatestAt own kind' t') : kind = kind' := by
  obtain ⟨i, ev, hev, rfl, rfl, hall⟩ := h
  obtain ⟨i', ev', hev', rfl, rfl, hall'⟩ := h'
  rcases Nat.lt_trichotomy i i' with hlt | rfl | hlt
  · have hbefore := (hall i' ev' hev').2 hlt
    have hbehind := (hall' i ev hev).1 hlt.le
    exact absurd hbehind (Int64.not_le.mpr hbefore)
  · rw [hev] at hev'
    cases hev'
    rfl
  · have hbefore := (hall' i ev hev).2 hlt
    have hbehind := (hall i' ev' hev').1 hlt.le
    exact absurd hbehind (Int64.not_le.mpr hbefore)

theorem getElem?_snoc_cases {j : Nat} {x y : DispositionEvent} (h : (own ++ [x])[j]? = some y) :
    own[j]? = some y ∨ j = own.length ∧ y = x := by
  rcases Nat.lt_trichotomy j own.length with hlt | rfl | hgt
  · rw [List.getElem?_append_left hlt] at h
    exact .inl h
  · rw [List.getElem?_concat_length] at h
    exact .inr ⟨rfl, (Option.some.inj h).symm⟩
  · rw [List.getElem?_eq_none (by simp; omega)] at h
    cases h

theorem latestAt_snoc (h : ∀ ev' ∈ own, ev'.createdAt ≤ ev.createdAt) :
    LatestAt (own ++ [ev]) ev.kind ev.createdAt := by
  refine ⟨own.length, ev, List.getElem?_concat_length, rfl, rfl, fun j ev' hev' => ?_⟩
  rcases getElem?_snoc_cases hev' with hold | ⟨rfl, rfl⟩
  · have hlt := (List.getElem?_eq_some_iff.mp hold).1
    exact ⟨fun _ => h ev' (List.mem_of_getElem? hold), fun hbehind => by omega⟩
  · exact ⟨fun _ => Int64.le_refl _, fun hbehind => absurd hbehind (Nat.lt_irrefl _)⟩

theorem LatestAt.snoc (h : LatestAt own kind t) (hlt : ev.createdAt < t) :
    LatestAt (own ++ [ev]) kind t := by
  obtain ⟨i, x, hx, hkind, ht, hall⟩ := h
  have hi := (List.getElem?_eq_some_iff.mp hx).1
  refine ⟨i, x, ?_, hkind, ht, fun j ev' hev' => ?_⟩
  · rw [List.getElem?_append_left hi, hx]
  · rcases getElem?_snoc_cases hev' with hold | ⟨rfl, rfl⟩
    · exact hall j ev' hold
    · exact ⟨fun _ => Int64.le_of_lt hlt, fun _ => hlt⟩

end Latest

theorem isExtreme_snoc {le : Int64 → Int64 → Prop} {pick : Int64 → Int64 → Int64}
    (hrefl : ∀ a, le a a) (htrans : ∀ a b c, le a b → le b c → le a c)
    (hpick : ∀ a b, (pick a b = a ∨ pick a b = b) ∧ le (pick a b) a ∧ le (pick a b) b)
    {times : List Int64} {o : Option Int64} (h : IsExtreme le times o) (t : Int64) :
    IsExtreme le (times ++ [t]) (some (o.elim t (pick · t))) := by
  cases o with
  | none =>
      rw [show times = [] from h]
      exact ⟨List.mem_singleton_self t, fun t' ht' => List.mem_singleton.mp ht' ▸ hrefl t⟩
  | some a =>
      obtain ⟨hmem, hall⟩ := h
      obtain ⟨heither, hleft, hright⟩ := hpick a t
      refine ⟨?_, fun t' ht' => ?_⟩
      · rcases heither with heq | heq
        · exact List.mem_append_left _ (by rwa [Option.elim_some, heq])
        · exact List.mem_append_right _ (by rw [Option.elim_some, heq]; exact List.mem_singleton_self t)
      · rcases List.mem_append.mp ht' with ht' | ht'
        · exact htrans _ a _ hleft (hall t' ht')
        · exact List.mem_singleton.mp ht' ▸ hright

theorem isExtreme_max {times : List Int64} {o : Option Int64}
    (h : IsExtreme (fun t t' => t' ≤ t) times o) (t : Int64) :
    IsExtreme (fun t t' => t' ≤ t) (times ++ [t]) (some (o.elim t (max · t))) := by
  refine @isExtreme_snoc (fun t t' => t' ≤ t) max Int64.le_refl
    (fun a b c hab hbc => Int64.le_trans hbc hab) (fun a b => ?_) times o h t
  change ((if a ≤ b then b else a) = a ∨ (if a ≤ b then b else a) = b) ∧
    a ≤ (if a ≤ b then b else a) ∧ b ≤ if a ≤ b then b else a
  split
  case isTrue hle => exact ⟨.inr rfl, hle, Int64.le_refl b⟩
  case isFalse hle => exact ⟨.inl rfl, Int64.le_refl a, Int64.le_of_lt (Int64.not_le.mp hle)⟩

theorem isExtreme_min {times : List Int64} {o : Option Int64}
    (h : IsExtreme (fun t t' => t ≤ t') times o) (t : Int64) :
    IsExtreme (fun t t' => t ≤ t') (times ++ [t]) (some (o.elim t (min · t))) := by
  refine @isExtreme_snoc (fun t t' => t ≤ t') min Int64.le_refl
    (fun a b c hab hbc => Int64.le_trans hab hbc) (fun a b => ?_) times o h t
  change ((if a ≤ b then a else b) = a ∨ (if a ≤ b then a else b) = b) ∧
    (if a ≤ b then a else b) ≤ a ∧ (if a ≤ b then a else b) ≤ b
  split
  case isTrue hle => exact ⟨.inl rfl, Int64.le_refl a, hle⟩
  case isFalse hle => exact ⟨.inr rfl, Int64.le_of_lt (Int64.not_le.mp hle), Int64.le_refl b⟩

theorem IsExtreme.unique {le : Int64 → Int64 → Prop} (hanti : ∀ a b, le a b → le b a → a = b)
    {times : List Int64} {o o' : Option Int64} (h : IsExtreme le times o) (h' : IsExtreme le times o') :
    o = o' := by
  cases o with
  | none =>
      cases o' with
      | none => rfl
      | some t =>
          rw [show times = [] from h] at h'
          cases h'.1
  | some t =>
      cases o' with
      | none =>
          rw [show times = [] from h'] at h
          cases h.1
      | some t' => exact congrArg some (hanti t t' (h.2 t' h'.1) (h'.2 t h.1))

theorem timesOf_snoc (kind : EventKind) (own : List DispositionEvent) (ev : DispositionEvent) :
    timesOf kind (own ++ [ev]) =
      timesOf kind own ++ if ev.kind = kind then [ev.createdAt] else [] := by
  rw [timesOf, List.filter_append, List.map_append]
  split
  case isTrue h => simp [timesOf, h]
  case isFalse h => simp [timesOf, h]

structure Folded (own : List DispositionEvent) (f : Fold) : Prop where
  latest : LatestAt own f.lastEvent f.lastEventAt ∨ own = [] ∧ f.lastEventAt = Int64.minValue
  attempts : f.attempts = UInt32.ofNat (timesOf .attempted own).length
  lastAttemptAt : IsExtreme (fun t t' => t' ≤ t) (timesOf .attempted own) f.lastAttemptAt
  firstDeliveredAt : IsExtreme (fun t t' => t ≤ t') (timesOf .delivered own) f.firstDeliveredAt
  hasDelivered : f.hasDelivered = true ↔ ∃ ev ∈ own, ev.kind = .delivered

section Folded

variable {own : List DispositionEvent} {f : Fold} {ev : DispositionEvent}

theorem Folded.le (h : Folded own f) (hev : ev ∈ own) : ev.createdAt ≤ f.lastEventAt := by
  rcases h.latest with hlatest | ⟨rfl, -⟩
  · exact hlatest.le hev
  · cases hev

theorem Folded.latest_snoc (h : Folded own f) (ev : DispositionEvent) :
    LatestAt (own ++ [ev]) (f.absorb ev).lastEvent (f.absorb ev).lastEventAt := by
  have hpick : (f.absorb ev).lastEvent = (if f.lastEventAt ≤ ev.createdAt then ev.kind else f.lastEvent) ∧
      (f.absorb ev).lastEventAt =
        if f.lastEventAt ≤ ev.createdAt then ev.createdAt else f.lastEventAt := by
    unfold Fold.absorb
    cases ev.kind <;> split <;> exact ⟨rfl, rfl⟩
  rw [hpick.1, hpick.2]
  split
  case isTrue hle => exact latestAt_snoc fun ev' hev' => Int64.le_trans (h.le hev') hle
  case isFalse hle =>
    rcases h.latest with hlatest | ⟨-, hmin⟩
    · exact hlatest.snoc (Int64.not_le.mp hle)
    · rw [hmin] at hle
      exact absurd (Int64.minValue_le _) hle

theorem Folded.absorb (h : Folded own f) (ev : DispositionEvent) :
    Folded (own ++ [ev]) (f.absorb ev) where
  latest := .inl (h.latest_snoc ev)
  attempts := by
    have hcount : (f.absorb ev).attempts = if ev.kind = .attempted then f.attempts + 1 else f.attempts := by
      unfold Fold.absorb
      cases ev.kind <;> split <;> rfl
    rw [hcount, timesOf_snoc, List.length_append, h.attempts]
    split
    · simp
    · simp
  lastAttemptAt := by
    have hlast : (f.absorb ev).lastAttemptAt = if ev.kind = .attempted then
        some (f.lastAttemptAt.elim ev.createdAt (max · ev.createdAt)) else f.lastAttemptAt := by
      unfold Fold.absorb
      cases ev.kind <;> split <;> rfl
    rw [hlast, timesOf_snoc]
    split
    · exact isExtreme_max h.lastAttemptAt ev.createdAt
    · rw [List.append_nil]
      exact h.lastAttemptAt
  firstDeliveredAt := by
    have hfirst : (f.absorb ev).firstDeliveredAt = if ev.kind = .delivered then
        some (f.firstDeliveredAt.elim ev.createdAt (min · ev.createdAt)) else f.firstDeliveredAt := by
      unfold Fold.absorb
      cases ev.kind <;> split <;> rfl
    rw [hfirst, timesOf_snoc]
    split
    · exact isExtreme_min h.firstDeliveredAt ev.createdAt
    · rw [List.append_nil]
      exact h.firstDeliveredAt
  hasDelivered := by
    have hdelivered : (f.absorb ev).hasDelivered = (f.hasDelivered || decide (ev.kind = .delivered)) := by
      unfold Fold.absorb
      cases ev.kind <;> split <;> simp
    rw [hdelivered, Bool.or_eq_true, decide_eq_true_iff, h.hasDelivered]
    simp only [List.mem_append, List.mem_singleton, or_and_right, exists_or, exists_eq_left]

theorem folded_new (ev : DispositionEvent) : Folded [ev] (Fold.new ev) := by
  have hempty : Folded [] ⟨ev.kind, Int64.minValue, 0, none, none, false⟩ :=
    ⟨.inr ⟨rfl, rfl⟩, rfl, rfl, rfl, by simp⟩
  exact hempty.absorb ev

/-- **The entry of an id** is made of the id's own events. -/
theorem folded_entries (own : List DispositionEvent) :
    match own.foldl (fun old ev => some (Fold.entry ev old)) none with
    | none => own = []
    | some f => Folded own f := by
  induction own using List.reverseRecOn with
  | nil => rfl
  | append_singleton own ev ih =>
      rw [List.foldl_append]
      cases hold : own.foldl (fun old ev => some (Fold.entry ev old)) none with
      | none =>
          rw [hold] at ih
          rw [show own = [] from ih]
          exact folded_new ev
      | some f =>
          rw [hold] at ih
          exact Folded.absorb ih ev

end Folded

/-! ### The rows -/

section Rows

variable {envelopes : List Envelope} {events : List DispositionEvent} {now : Int64}
  {r r' : SummaryRecord}

def rowOf (envelopes : List Envelope) (events : List DispositionEvent) (now : Int64) (id : String) :
    SummaryRecord :=
  summaryFor id
    ((events.filter (·.correlationId = id)).foldl (fun old ev => some (Fold.entry ev old)) none)
    (envelopes.find? (·.correlationId = id)) now

theorem deriveState_delivered {hasDelivered : Bool} {expiresAt : Option Int64}
    {lastEvent : Option EventKind} :
    deriveState hasDelivered expiresAt lastEvent now = .delivered ↔ hasDelivered = true := by
  unfold deriveState
  split_ifs <;> simp_all

theorem deriveState_expired {hasDelivered : Bool} {expiresAt : Option Int64}
    {lastEvent : Option EventKind} :
    deriveState hasDelivered expiresAt lastEvent now = .expired ↔
      hasDelivered = false ∧ ∃ t, expiresAt = some t ∧ t ≤ now := by
  unfold deriveState
  cases expiresAt <;> split_ifs <;> simp_all

theorem deriveState_failed {hasDelivered : Bool} {expiresAt : Option Int64}
    {lastEvent : Option EventKind} :
    deriveState hasDelivered expiresAt lastEvent now = .failed ↔
      hasDelivered = false ∧ (∀ t, expiresAt = some t → ¬ t ≤ now) ∧
        lastEvent = some .deliveryFailed := by
  unfold deriveState
  cases expiresAt <;> split_ifs <;> simp_all

/-- What the events of an id come to, when there are none or some. -/
theorem summarizes_rowOf (envelopes : List Envelope) (events : List DispositionEvent) (now : Int64)
    (k : String) : Summarizes envelopes events now (rowOf envelopes events now k) := by
  have hown : (∃ ev ∈ events, ev.kind = .delivered ∧ ev.correlationId = k) ↔
      ∃ ev ∈ events.filter (·.correlationId = k), ev.kind = .delivered := by
    simp only [List.mem_filter, decide_eq_true_iff]
    exact ⟨fun ⟨ev, hev, hkind, hid⟩ => ⟨ev, ⟨hev, hid⟩, hkind⟩,
      fun ⟨ev, ⟨hev, hid⟩, hkind⟩ => ⟨ev, hev, hkind, hid⟩⟩
  have hfold := folded_entries (events.filter (·.correlationId = k))
  have hnot (b : Bool) : b = false ↔ ¬ b = true := by cases b <;> simp
  generalize hentries : (events.filter (·.correlationId = k)).foldl
    (fun old ev => some (Fold.entry ev old)) none = fold at hfold
  have hrow : rowOf envelopes events now k =
      summaryFor k fold (envelopes.find? (·.correlationId = k)) now := by rw [rowOf, hentries]
  -- the facts about the fold, with no events and with some
  have hattempts : (fold.map (·.attempts)).getD 0 =
      UInt32.ofNat (timesOf .attempted (events.filter (·.correlationId = k))).length := by
    cases fold with
    | none => rw [show events.filter (·.correlationId = k) = [] from hfold]; rfl
    | some f => exact (show Folded _ f from hfold).attempts
  have hlast (kind : EventKind) : fold.map (·.lastEvent) = some kind ↔
      ∃ t, LatestAt (events.filter (·.correlationId = k)) kind t := by
    cases fold with
    | none =>
        refine iff_of_false nofun fun ⟨t, ht⟩ => ht.ne_nil hfold
    | some f =>
        have hfolded : Folded (events.filter (·.correlationId = k)) f := hfold
        have hlatest : LatestAt (events.filter (·.correlationId = k)) f.lastEvent f.lastEventAt := by
          rcases hfolded.latest with hlatest | ⟨hnil, -⟩
          · exact hlatest
          · rw [hnil] at hentries
            cases hentries
        rw [Option.map_some, Option.some.injEq]
        exact ⟨fun heq => ⟨f.lastEventAt, heq ▸ hlatest⟩, fun ⟨t, ht⟩ => hlatest.unique ht⟩
  have hattempt : IsExtreme (fun t t' => t' ≤ t)
      (timesOf .attempted (events.filter (·.correlationId = k))) (fold.bind (·.lastAttemptAt)) := by
    cases fold with
    | none => rw [show events.filter (·.correlationId = k) = [] from hfold]; rfl
    | some f => exact (show Folded _ f from hfold).lastAttemptAt
  have hfirst : IsExtreme (fun t t' => t ≤ t')
      (timesOf .delivered (events.filter (·.correlationId = k))) (fold.bind (·.firstDeliveredAt)) := by
    cases fold with
    | none => rw [show events.filter (·.correlationId = k) = [] from hfold]; rfl
    | some f => exact (show Folded _ f from hfold).firstDeliveredAt
  have hdelivered : fold.any (·.hasDelivered) = true ↔
      ∃ ev ∈ events, ev.kind = .delivered ∧ ev.correlationId = k := by
    rw [hown]
    cases fold with
    | none => rw [show events.filter (·.correlationId = k) = [] from hfold]; simp
    | some f => exact (show Folded _ f from hfold).hasDelivered
  rw [hrow]
  refine ⟨rfl, hattempts, hlast, hattempt, hfirst, rfl, rfl, rfl, ?_, ?_, ?_⟩
  · exact deriveState_delivered.trans hdelivered
  · simp only [summaryFor, Ne, deriveState_expired, deriveState_delivered, hnot]
  · simp only [summaryFor, Ne, deriveState_failed, deriveState_expired, deriveState_delivered, hnot]
    grind

/-- The row of an id is the only one that says what it is to say. -/
theorem Summarizes.unique (h : Summarizes envelopes events now r)
    (h' : Summarizes envelopes events now r') (hid : r.correlationId = r'.correlationId) : r = r' := by
  have hlast : r.lastEvent = r'.lastEvent := by
    apply Option.ext
    intro kind
    rw [h.lastEvent, h'.lastEvent, hid]
  have hattempt : r.lastAttemptAt = r'.lastAttemptAt :=
    IsExtreme.unique (fun a b hba hab => Int64.le_antisymm hab hba) h.lastAttemptAt
      (hid ▸ h'.lastAttemptAt)
  have hfirst : r.firstDeliveredAt = r'.firstDeliveredAt :=
    IsExtreme.unique (fun a b hab hba => Int64.le_antisymm hab hba) h.firstDeliveredAt
      (hid ▸ h'.firstDeliveredAt)
  have hexpires : r.expiresAt = r'.expiresAt := by rw [h.expiresAt, h'.expiresAt, hid]
  have hstate : r.state = r'.state := by
    have hdelivered := h.delivered.trans (hid ▸ h'.delivered.symm)
    have hexpired : r.state = .expired ↔ r'.state = .expired := by
      rw [h.expired, h'.expired, hexpires]
      simp only [Ne, hdelivered]
    have hfailed : r.state = .failed ↔ r'.state = .failed := by
      rw [h.failed, h'.failed, hlast]
      simp only [Ne, hdelivered, hexpired]
    cases hs : r.state <;> cases hs' : r'.state <;> simp_all
  exact SummaryRecord.ext (h.version.trans h'.version.symm) hid hstate
    (by rw [h.attempts, h'.attempts, hid]) hlast hattempt hfirst hexpires
    (by rw [h.authoredAt, h'.authoredAt, hid]) (by rw [h.origin, h'.origin, hid])

theorem find?_of_mem_keepFirst {env : Envelope}
    (h : env ∈ keepFirst (·.correlationId) ∅ envelopes) :
    envelopes.find? (·.correlationId = env.correlationId) = some env := by
  have hmem : env ∈ (keepFirst (·.correlationId) ∅ envelopes).filter
      (·.correlationId = env.correlationId) :=
    List.mem_filter.mpr ⟨h, decide_eq_true rfl⟩
  rw [filter_keepFirst, if_neg (Finset.notMem_empty _), Option.mem_toList] at hmem
  exact hmem

/-- **One row for each id**, in the order in which the ids come. -/
theorem projectSummary_eq (envelopes : List Envelope) (events : List DispositionEvent)
    (now : Int64) : projectSummary envelopes events now =
      (keepFirst id ∅ (envelopes.map (·.correlationId) ++ events.map (·.correlationId))).map
        (rowOf envelopes events now) := by
  have henvelopes : keepFirst id ∅ (envelopes.map (·.correlationId)) =
      (keepFirst (·.correlationId) ∅ envelopes).map (·.correlationId) := keepFirst_map _ _
  have hseen (k : String) : k ∈ seenAfter (·.correlationId) ∅ (keepFirst (·.correlationId) ∅ envelopes) ↔
      k ∈ seenAfter id ∅ ((keepFirst (·.correlationId) ∅ envelopes).map (·.correlationId)) := by
    simp [mem_seenAfter]
  rw [keepFirst_append, List.map_append, henvelopes, List.map_map]
  refine congr (congrArg _ (List.map_congr_left fun env henv => ?_)) ?_
  · rw [Function.comp_apply, rowOf, find?_of_mem_keepFirst henv, OrderedMap.get_gather]
  · -- the ids that no envelope has
    have horphans (others : Finset String) : keepFirst id (∅ ∪ others) (events.map (·.correlationId)) =
        (keepFirst id ∅ (events.map (·.correlationId))).filter (id · ∉ others) :=
      keepFirst_union others
    simp only [Finset.empty_union] at horphans
    rw [horphans, OrderedMap.order_gather]
    have hfilter : (keepFirst id ∅ (events.map (·.correlationId))).filter
          (· ∉ seenAfter (·.correlationId) ∅ (keepFirst (·.correlationId) ∅ envelopes)) =
        (keepFirst id ∅ (events.map (·.correlationId))).filter (id · ∉ seenAfter id ∅
          ((keepFirst (·.correlationId) ∅ envelopes).map (·.correlationId))) := by
      refine List.filter_congr fun k _ => ?_
      rw [decide_eq_decide, not_iff_not]
      exact hseen k
    rw [← hfilter]
    refine List.map_congr_left fun k hk => ?_
    have hnew := of_decide_eq_true (List.mem_filter.mp hk).2
    have hnone : envelopes.find? (·.correlationId = k) = none := by
      have hkept : (keepFirst (·.correlationId) ∅ envelopes).filter (·.correlationId = k) =
          if k ∈ (∅ : Finset String) then [] else (envelopes.find? (·.correlationId = k)).toList :=
        filter_keepFirst k
      rw [if_neg (Finset.notMem_empty k)] at hkept
      cases hfind : envelopes.find? (·.correlationId = k) with
      | none => rfl
      | some env =>
          rw [hfind] at hkept
          have hmem : env ∈ (keepFirst (·.correlationId) ∅ envelopes).filter (·.correlationId = k) :=
            hkept ▸ List.mem_singleton_self env
          obtain ⟨hfirst, hid⟩ := List.mem_filter.mp hmem
          exact absurd (mem_seenAfter.mpr (.inr ⟨env, hfirst, of_decide_eq_true hid⟩)) hnew
    rw [rowOf, hnone, OrderedMap.get_gather]

def Present (envelopes : List Envelope) (events : List DispositionEvent) (k : String) : Prop :=
  (∃ env ∈ envelopes, env.correlationId = k) ∨ ∃ ev ∈ events, ev.correlationId = k

theorem mem_projectSummary : r ∈ projectSummary envelopes events now ↔
    Present envelopes events r.correlationId ∧ r = rowOf envelopes events now r.correlationId := by
  have hids (k : String) : k ∈ keepFirst id ∅ (envelopes.map (·.correlationId) ++
      events.map (·.correlationId)) ↔ Present envelopes events k := by
    have hkeys (ids : List String) : k ∈ (keepFirst id ∅ ids).map id ↔
        k ∉ (∅ : Finset String) ∧ k ∈ ids.map id := mem_keys_keepFirst
    simp only [List.map_id] at hkeys
    rw [hkeys, and_iff_right (Finset.notMem_empty k), List.mem_append, List.mem_map, List.mem_map]
    rfl
  rw [projectSummary_eq, List.mem_map]
  constructor
  · rintro ⟨k, hk, rfl⟩
    exact ⟨(hids k).mp hk, rfl⟩
  · rintro ⟨hpresent, heq⟩
    exact ⟨r.correlationId, (hids _).mpr hpresent, heq.symm⟩

theorem nodup_ids : ((projectSummary envelopes events now).map (·.correlationId)).Nodup := by
  have hkeys : ((keepFirst id ∅ (envelopes.map (·.correlationId) ++
    events.map (·.correlationId))).map id).Nodup := nodup_keys_keepFirst
  rw [projectSummary_eq, List.map_map]
  exact hkeys

theorem projectOne_eq_some (k : String) : projectOne envelopes events now k = some r ↔
    r ∈ projectSummary envelopes events now ∧ r.correlationId = k := by
  constructor
  · intro h
    have hid : (r.correlationId == k) = true :=
      List.find?_some (p := fun r : SummaryRecord => r.correlationId == k) h
    exact ⟨List.mem_of_find?_eq_some h, eq_of_beq hid⟩
  · rintro ⟨hmem, rfl⟩
    have hsome : (projectOne envelopes events now r.correlationId).isSome = true :=
      List.find?_isSome.mpr ⟨r, hmem, beq_self_eq_true _⟩
    obtain ⟨r', hr'⟩ := Option.isSome_iff_exists.mp hsome
    have hid : r'.correlationId = r.correlationId := eq_of_beq
      (List.find?_some (p := fun r' : SummaryRecord => r'.correlationId == r.correlationId) hr')
    rw [hr', (mem_projectSummary.mp (List.mem_of_find?_eq_some hr')).2, hid,
      ← (mem_projectSummary.mp hmem).2]

theorem present_congr {events' : List DispositionEvent} {k : String}
    (h : events.filter (·.correlationId = k) = events'.filter (·.correlationId = k)) :
    Present envelopes events k ↔ Present envelopes events' k := by
  have hexists (events : List DispositionEvent) : (∃ ev ∈ events, ev.correlationId = k) ↔
      events.filter (·.correlationId = k) ≠ [] := by simp
  rw [Present, Present, hexists, hexists, h]

theorem projectOne_congr {events' : List DispositionEvent} {k : String}
    (h : events.filter (·.correlationId = k) = events'.filter (·.correlationId = k)) :
    projectOne envelopes events now k = projectOne envelopes events' now k := by
  apply Option.ext
  intro r
  rw [projectOne_eq_some, projectOne_eq_some, mem_projectSummary, mem_projectSummary]
  refine and_congr_left fun hid => ?_
  subst hid
  rw [present_congr h, rowOf, rowOf, h]

theorem row_snoc (ev : DispositionEvent) (hr : r ∈ projectSummary envelopes events now) :
    ∃ r' ∈ projectSummary envelopes (events ++ [ev]) now,
      r'.correlationId = r.correlationId ∧ (r.state = .delivered → r'.state = .delivered) ∧
        (ev.correlationId ≠ r.correlationId → r' = r) := by
  obtain ⟨hpresent, hrow⟩ := mem_projectSummary.mp hr
  have hlater : Present envelopes (events ++ [ev]) r.correlationId := by
    rcases hpresent with henv | ⟨ev', hev', hid⟩
    · exact .inl henv
    · exact .inr ⟨ev', List.mem_append_left _ hev', hid⟩
  refine ⟨rowOf envelopes (events ++ [ev]) now r.correlationId,
    mem_projectSummary.mpr ⟨hlater, rfl⟩, rfl, fun hdelivered => ?_, fun hother => ?_⟩
  · rw [hrow] at hdelivered
    obtain ⟨ev', hev', hkind, hid⟩ := (summarizes_rowOf _ _ _ _).delivered.mp hdelivered
    exact (summarizes_rowOf _ _ _ _).delivered.mpr
      ⟨ev', List.mem_append_left _ hev', hkind, hid⟩
  · have hsame : (events ++ [ev]).filter (·.correlationId = r.correlationId) =
        events.filter (·.correlationId = r.correlationId) := by
      rw [List.filter_append, List.filter_cons_of_neg (by simpa using hother), List.filter_nil,
        List.append_nil]
    conv => rhs; rw [hrow]
    rw [rowOf, rowOf, hsame]

/-- **The summary view.** -/
theorem projectSummary_spec (envelopes : List Envelope) (events : List DispositionEvent)
    (now : Int64) :
    -- the ids, each once, in the order of the envelopes and then of the events
    (projectSummary envelopes events now).map (·.correlationId) =
        keepFirst id ∅ (envelopes.map (·.correlationId) ++ events.map (·.correlationId)) ∧
      ((projectSummary envelopes events now).map (·.correlationId)).Nodup ∧
      -- the rows are those that say what they are to say
      (∀ r, r ∈ projectSummary envelopes events now ↔
        Present envelopes events r.correlationId ∧ Summarizes envelopes events now r) ∧
      (∀ k r, projectOne envelopes events now k = some r ↔
        r ∈ projectSummary envelopes events now ∧ r.correlationId = k) ∧
      -- one more event
      (∀ ev, ∀ r ∈ projectSummary envelopes events now, ∃ r' ∈ projectSummary envelopes (events ++ [ev]) now,
        r'.correlationId = r.correlationId ∧ (r.state = .delivered → r'.state = .delivered) ∧
          (ev.correlationId ≠ r.correlationId → r' = r)) ∧
      ∀ events' k, events.filter (·.correlationId = k) = events'.filter (·.correlationId = k) →
        projectOne envelopes events now k = projectOne envelopes events' now k := by
  refine ⟨?_, nodup_ids, fun r => ?_, fun k r => projectOne_eq_some k, fun ev r hr => row_snoc ev hr,
    fun events' k h => projectOne_congr h⟩
  · rw [projectSummary_eq, List.map_map]
    exact List.map_id _
  · rw [mem_projectSummary]
    refine and_congr_right fun _ => ⟨fun heq => ?_, fun hsays => ?_⟩
    · rw [heq]
      exact summarizes_rowOf _ _ _ _
    · exact hsays.unique (summarizes_rowOf _ _ _ _) rfl

end Rows

end QuorumDispatch.Dispositions
