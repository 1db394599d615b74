import Mathlib.Logic.Function.Basic
import QuorumDispatch.Lib.Tracked
import QuorumDispatch.Timefmt.Iso

/-!
Moves to the trash. A call writes a sidecar, copies the file beside it and unlinks the file; it goes
back where a step fails. Other calls do the same at the same time, perhaps with the same file, and
other processes write, replace and remove files.
-/

namespace QuorumDispatch.Gc

open Lib

/-! ### Names -/

inductive CandidateType where
  | ccJsonl
  | ccTombstone
  | ocSidecar
  | ocLog
  | relayInbox
deriving DecidableEq, Repr

def CandidateType.ext : CandidateType → String
  | ccJsonl => ".jsonl"
  | ccTombstone => ".json.tombstoned"
  | ocSidecar => ".json"
  | ocLog => ".log"
  | relayInbox => ".json"

def typeToken : CandidateType → String
  | .ccJsonl => "cc-jsonl"
  | .ccTombstone => "cc-tombstone"
  | .ocSidecar => "oc-sidecar"
  | .ocLog => "oc-log"
  | .relayInbox => "relay-inbox"

def isoStampFrom (iso : List Char) : List Char :=
  (iso.map fun c => if c = ':' ∨ c = '.' then '-' else c).take 19

def trashName (timestamp identifier : List Char) (kind : CandidateType) : List Char :=
  timestamp ++ '_' :: identifier ++ kind.ext.toList

/-- `trash_nonce`, for the process and its counter. -/
def trashNonce (pid n : Nat) : List Char := Nat.toDigits 10 pid ++ '-' :: Nat.toDigits 10 n

structure TrashMeta where
  originalPath : List Char
  reason : List Char
  prunedAt : List Char
  kind : String
  size : UInt64
deriving DecidableEq, Repr

inductive Place where
  | source (path : List Char)
  | trash (dir name : List Char)
deriving DecidableEq, Repr

/-- A call, with what it takes from its process and how many rounds of its copy there is time for. -/
structure Call where
  src : List Char
  trashDir : List Char
  kind : CandidateType
  identifier : List Char
  reason : List Char
  size : UInt64
  nowMs : Int
  pid : Nat
  counter : Nat
  rounds : Nat

namespace Call

variable (c : Call)

def name : List Char :=
  trashName (isoStampFrom (Timefmt.Gc.isoFromMs c.nowMs))
    (c.identifier ++ '.' :: trashNonce c.pid c.counter) c.kind

def trashPath : Place := .trash c.trashDir c.name

def metaPath : Place := .trash c.trashDir (c.name ++ "_meta.json".toList)

def trashMeta : TrashMeta where
  originalPath := c.src
  reason := c.reason
  prunedAt := Timefmt.Gc.isoFromMs c.nowMs
  kind := typeToken c.kind
  size := c.size

end Call

/-! ### The move -/

inductive Ask where
  | createDirAll (dir : List Char)
  | createNew (place : Place)
  | writeAll (file : Nat) (bytes : Bytes)
  | openRead (src : List Char)
  | read (file offset : Nat)
  | removeFile (place : Place)

/-- What comes of a step: `died` when the process does not come back from it. -/
inductive Outcome where
  | done
  | failed
  | died
deriving DecidableEq, Repr

inductive Removed where
  | ok
  | notFound
  | failed
deriving DecidableEq, Repr

def Answer : Ask → Type
  | .createDirAll _ => Bool
  | .createNew _ => Option Nat
  | .writeAll .. => Outcome
  | .openRead _ => Option Nat
  | .read .. => Option Bytes
  | .removeFile _ => Removed

abbrev Op := Dialog Ask Answer

def ask (q : Ask) : Op (Answer q) := Dialog.query q

def writeNewExcl (path : Place) (bytes : Bytes) : Op Outcome := do
  match ← ask (.createNew path) with
  | none => pure .failed
  | some f => ask (.writeAll f bytes)

/-- `io::copy`, for so many rounds; a read of nothing is the end of the file. -/
def copyFrom (reader writer : Nat) : Nat → Nat → Op Outcome
  | 0, _ => pure .died
  | rounds + 1, offset => do
      match ← ask (.read reader offset) with
      | none => pure .failed
      | some [] => pure .done
      | some (b :: chunk) =>
          match ← ask (.writeAll writer (b :: chunk)) with
          | .done => copyFrom reader writer rounds (offset + (b :: chunk).length)
          | .failed => pure .failed
          | .died => pure .died

def copyNewExcl (rounds : Nat) (src : List Char) (dst : Place) : Op Outcome := do
  match ← ask (.openRead src) with
  | none => pure .failed
  | some reader =>
      match ← ask (.createNew dst) with
      | none => pure .failed
      | some writer => copyFrom reader writer rounds 0

/-- `move_to_trash_at`, with the printer of the sidecar; none when the call does not come back. -/
def moveToTrashAt (toStringPretty : TrashMeta → Option Bytes) (c : Call) : Op (Option Bool) := do
  match ← ask (.createDirAll c.trashDir) with
  | false => pure (some false)
  | true =>
  match toStringPretty c.trashMeta with
  | none => pure (some false)
  | some metaJson =>
  match ← writeNewExcl c.metaPath metaJson with
  | .died => pure none
  | .failed => pure (some false)
  | .done =>
  match ← copyNewExcl c.rounds c.src c.trashPath with
  | .died => pure none
  | .failed => do
      let _ ← ask (.removeFile c.metaPath)
      pure (some false)
  | .done =>
  match ← ask (.removeFile (.source c.src)) with
  | .ok => pure (some true)
  | .notFound => pure (some true)
  | .failed => do
      let _ ← ask (.removeFile c.metaPath)
      let _ ← ask (.removeFile c.trashPath)
      pure (some false)

/-! ### The files -/

/-- The files by name, and what the names lead to. Beside them stands what the calls have done: who made a
file, who is between the opening of a source and its removal, what a source held when a call unlinked it,
and which calls have died. -/
structure Disk where
  names : Place → Option Nat
  bytes : Nat → Bytes
  next : Nat
  maker : Nat → Option Nat
  copying : Nat → Option (List Char × Nat)
  unlinked : Nat → Option Bytes
  dead : Nat → Bool

namespace Disk

variable (s : Disk) (i : Nat)

def create (place : Place) : Disk :=
  { s with
    names := Function.update s.names place (some s.next)
    bytes := Function.update s.bytes s.next []
    next := s.next + 1
    maker := Function.update s.maker s.next (some i) }

def append (file : Nat) (bytes : Bytes) : Disk :=
  { s with bytes := Function.update s.bytes file (s.bytes file ++ bytes) }

def startCopy (src : List Char) (file : Nat) : Disk :=
  { s with copying := Function.update s.copying i (some (src, file)) }

def endCopy : Disk := { s with copying := Function.update s.copying i none }

def unlink (place : Place) (file : Nat) : Disk :=
  { s with
    names := Function.update s.names place none
    copying := Function.update s.copying i none
    unlinked := match place with
      | .source _ => Function.update s.unlinked i (some (s.bytes file))
      | .trash .. => s.unlinked }

def crash : Disk :=
  { s with
    copying := Function.update s.copying i none
    dead := Function.update s.dead i true }

def answers (e : Exchange Ask Answer) (s' : Disk) : Prop :=
  s.dead i = false ∧
    match e with
    | ⟨.createDirAll _, _⟩ => s' = s
    | ⟨.createNew place, some file⟩ =>
        s.names place = none ∧ file = s.next ∧ s' = s.create i place
    | ⟨.createNew _, none⟩ => s' = s
    | ⟨.writeAll file bytes, .done⟩ => s' = s.append file bytes
    | ⟨.writeAll file bytes, .failed⟩ => ∃ part, part <+: bytes ∧ s' = s.append file part
    | ⟨.writeAll file bytes, .died⟩ =>
        ∃ part, part <+: bytes ∧ s' = (s.append file part).crash i
    | ⟨.openRead src, some file⟩ => s.names (.source src) = some file ∧ s' = s.startCopy i src file
    | ⟨.openRead _, none⟩ => s' = s
    | ⟨.read file offset, some chunk⟩ =>
        chunk <+: (s.bytes file).drop offset ∧ (chunk = [] → (s.bytes file).drop offset = []) ∧ s' = s
    | ⟨.read .., none⟩ => s' = s
    | ⟨.removeFile place, .ok⟩ => ∃ file, s.names place = some file ∧ s' = s.unlink i place file
    | ⟨.removeFile place, .notFound⟩ => s.names place = none ∧ s' = s.endCopy i
    | ⟨.removeFile _, .failed⟩ => s' = s.endCopy i

/-- What other processes do: they write, replace and remove sources, and leave the trash alone. -/
structure Others (s s' : Disk) : Prop where
  trash : ∀ dir name, s'.names (.trash dir name) = s.names (.trash dir name)
  made : ∀ file, s.maker file ≠ none → s'.bytes file = s.bytes file
  next : s.next ≤ s'.next
  source : ∀ src file, s'.names (.source src) = some file → s.maker file = none ∧ file < s'.next
  maker : s'.maker = s.maker
  copying : s'.copying = s.copying
  unlinked : s'.unlinked = s.unlinked
  dead : s'.dead = s.dead

/-- No source that is being copied is written, replaced or made anew; it may be removed. -/
def Undisturbed (s s' : Disk) : Prop :=
  ∀ i src file, s.copying i = some (src, file) → s'.bytes file = s.bytes file ∧
    (s'.names (.source src) = s.names (.source src) ∨ s'.names (.source src) = none)

structure Fresh (s : Disk) : Prop where
  bound : ∀ place file, s.names place = some file → file < s.next
  maker : ∀ file, s.maker file = none
  copying : ∀ i, s.copying i = none
  unlinked : ∀ i, s.unlinked i = none
  dead : ∀ i, s.dead i = false

end Disk

/-- A write or a read breaks off, or what a call has made cannot be removed. -/
def Fails : Exchange Ask Answer → Prop
  | ⟨.writeAll .., .failed⟩ => True
  | ⟨.read .., none⟩ => True
  | ⟨.removeFile (.trash ..), .failed⟩ => True
  | _ => False

section Rules

variable (toStringPretty : TrashMeta → Option Bytes) (calm : Prop)

/-- Calls side by side; they may die at any time. In a calm run, sources are not disturbed while they are
copied. -/
def rules : PoolRules Disk (moveToTrashAt toStringPretty) where
  answers := Disk.answers
  moves p s' := (∃ i, s' = p.shared.crash i) ∨
    (p.shared.Others s' ∧ (calm → p.shared.Undisturbed s'))

/-- In a calm run, what has been opened or created can be read, written and removed. -/
def allowedAct (_ : Pool Disk (moveToTrashAt toStringPretty)) (a : PoolAct Call Ask Answer) : Prop :=
  calm → ∀ i e, a = .answer i e → ¬ Fails e

end Rules

end QuorumDispatch.Gc
