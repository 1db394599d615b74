import QuorumDispatch.Lib.Json

/-!
The rows of `dispositions.jsonl`: typed events with a fixed head and one tail
field per variant. The writer emits the keys in a pinned order; the reader
walks the entries of the object in any order, refuses a repeated or unknown key
and enforces the tail of the variant.
-/

namespace QuorumDispatch.Dispositions

open Lib

inductive EventKind where
  | attempted
  | queued
  | delivered
  | deliveryFailed
  | refused
deriving DecidableEq, Repr

def EventKind.name : EventKind → String
  | .attempted => "attempted"
  | .queued => "queued"
  | .delivered => "delivered"
  | .deliveryFailed => "delivery-failed"
  | .refused => "refused"

def EventKind.all : List EventKind :=
  [.attempted, .queued, .delivered, .deliveryFailed, .refused]

/-- The derived reader of a unit variant: its name, or an object with the name
as the only key, over `null`. -/
def EventKind.ofJson : Json → Option EventKind
  | .str s => EventKind.all.find? (·.name == s)
  | .obj [(s, .null)] => EventKind.all.find? (·.name == s)
  | _ => none

@[simp] theorem EventKind.ofJson_name (k : EventKind) : ofJson (.str k.name) = some k := by
  cases k <;> decide

inductive DispositionEvent where
  | attempted (correlationId : String) (createdAt : Int64)
  | queued (correlationId : String) (createdAt : Int64)
  | delivered (correlationId : String) (createdAt : Int64) (bodyDigest : String)
  | deliveryFailed (correlationId : String) (createdAt : Int64) (failureClass : String)
  | refused (correlationId : String) (createdAt : Int64) (refusalClass : String)
deriving DecidableEq, Repr

namespace DispositionEvent

def kind : DispositionEvent → EventKind
  | attempted .. => .attempted
  | queued .. => .queued
  | delivered .. => .delivered
  | deliveryFailed .. => .deliveryFailed
  | refused .. => .refused

def correlationId : DispositionEvent → String
  | attempted id _ | queued id _ | delivered id _ _ | deliveryFailed id _ _
  | refused id _ _ => id

def createdAt : DispositionEvent → Int64
  | attempted _ t | queued _ t | delivered _ t _ | deliveryFailed _ t _ | refused _ t _ => t

def tail : DispositionEvent → List (String × Json)
  | attempted .. | queued .. => []
  | delivered _ _ digest => [("body_digest", .str digest)]
  | deliveryFailed _ _ cls | refused _ _ cls => [("class", .str cls)]

/-- `Serialize`: the fixed head, then the tail. -/
def toJson (e : DispositionEvent) : Json :=
  .obj ([("v", Json.num 1), ("correlation_id", Json.str e.correlationId),
    ("event", Json.str e.kind.name), ("created_at", Json.num e.createdAt.toInt)] ++ e.tail)

def toJsonlLine (serde : SerdeJson) (e : DispositionEvent) : List Char :=
  serde.toString e.toJson

end DispositionEvent

/-! ### Deserialize -/

/-- What `Deserialize` reports. -/
inductive DeError where
  | invalidType
  | duplicateField (field : String)
  | unknownField (field : String)
  | missingField (field : String)
  | custom (message : String)
deriving DecidableEq, Repr

/-- The slots that `visit_map` fills. -/
structure Slots where
  v : Option UInt32 := none
  correlationId : Option String := none
  event : Option EventKind := none
  createdAt : Option Int64 := none
  cls : Option String := none
  bodyDigest : Option String := none

/-- Fill a slot, refusing a repeated key before the value is looked at. -/
def setOnce {α : Type} (slot : Option α) (value : Option α) (field : String) :
    Except DeError (Option α) :=
  match slot with
  | some _ => .error (.duplicateField field)
  | none =>
      match value with
      | some a => .ok (some a)
      | none => .error .invalidType

def visitEntry (s : Slots) (entry : String × Json) : Except DeError Slots :=
  match entry.1 with
  | "v" => do
      let v ← setOnce s.v entry.2.asU32 "v"
      return { s with v }
  | "correlation_id" => do
      let correlationId ← setOnce s.correlationId entry.2.asStr "correlation_id"
      return { s with correlationId }
  | "event" => do
      let event ← setOnce s.event (EventKind.ofJson entry.2) "event"
      return { s with event }
  | "created_at" => do
      let createdAt ← setOnce s.createdAt entry.2.asI64 "created_at"
      return { s with createdAt }
  | "class" => do
      let cls ← setOnce s.cls entry.2.asStr "class"
      return { s with cls }
  | "body_digest" => do
      let bodyDigest ← setOnce s.bodyDigest entry.2.asStr "body_digest"
      return { s with bodyDigest }
  | other => .error (.unknownField other)

def required {α : Type} (slot : Option α) (field : String) : Except DeError α :=
  match slot with
  | some a => .ok a
  | none => .error (.missingField field)

def forbidden (slot : Option String) (message : String) : Except DeError Unit :=
  if slot.isSome then .error (.custom message) else .ok ()

/-- The checks behind the key loop: the head is complete and the tail is that
of the variant. -/
def Slots.finish (s : Slots) : Except DeError DispositionEvent := do
  let _ ← required s.v "v"
  let correlationId ← required s.correlationId "correlation_id"
  let event ← required s.event "event"
  let createdAt ← required s.createdAt "created_at"
  match event with
  | .delivered =>
      forbidden s.cls "a `delivered` event carries a foreign `class` field"
      let digest ← required s.bodyDigest "body_digest"
      return .delivered correlationId createdAt digest
  | .deliveryFailed =>
      forbidden s.bodyDigest "a `delivery-failed` event carries a foreign `body_digest` field"
      let cls ← required s.cls "class"
      return .deliveryFailed correlationId createdAt cls
  | .refused =>
      forbidden s.bodyDigest "a `refused` event carries a foreign `body_digest` field"
      let cls ← required s.cls "class"
      return .refused correlationId createdAt cls
  | .attempted =>
      forbidden s.cls "a plain event (attempted/queued) carries a foreign `class` field"
      forbidden s.bodyDigest
        "a plain event (attempted/queued) carries a foreign `body_digest` field"
      return .attempted correlationId createdAt
  | .queued =>
      forbidden s.cls "a plain event (attempted/queued) carries a foreign `class` field"
      forbidden s.bodyDigest
        "a plain event (attempted/queued) carries a foreign `body_digest` field"
      return .queued correlationId createdAt

def DispositionEvent.deserialize : Json → Except DeError DispositionEvent
  | .obj entries => entries.foldlM visitEntry {} >>= Slots.finish
  | _ => .error .invalidType

theorem DispositionEvent.deserialize_toJson (e : DispositionEvent) :
    DispositionEvent.deserialize e.toJson = .ok e := by
  have hv : (Json.num 1).asU32 = some 1 := by decide
  cases e <;>
    simp [deserialize, toJson, kind, correlationId, createdAt, DispositionEvent.tail, visitEntry,
      setOnce, hv, Slots.finish, required, forbidden, Json.asStr, bind, Except.bind, pure,
      Except.pure]

theorem DispositionEvent.version_toJson (e : DispositionEvent) :
    e.toJson.u64Field "v" = some 1 := by
  cases e <;> rfl

end QuorumDispatch.Dispositions
