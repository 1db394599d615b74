import Mathlib.Data.List.Sort
import QuorumDispatch.Lib.FirstWins
import QuorumDispatch.Sessions.Rows

/-!
`join_sessions_counted`: the live entries, the transcripts, the panes, the tombstones and the cold
threads become one list. What claims a session id first has it.
-/

namespace QuorumDispatch.Sessions

open Lib

/-! ### The registry -/

def unidentifiedKey (pid : Int64) : String := "\x00unidentified-pid:" ++ toString pid

def dedupeId (e : RegistryEntry) : String :=
  match nonempty e.sessionId, e.pid with
  | some sid, _ => sid
  | none, some pid => unidentifiedKey pid
  | none, none => ""

def providerClassIsAcp (e : RegistryEntry) : Bool := e.provider.any fun p => rowIsAcp p e.hosting

def dedupeKey (e : RegistryEntry) : String × Bool := (dedupeId e, providerClassIsAcp e)

def updatedMs (e : RegistryEntry) : Int := (e.updatedAt.getD 0).toInt

/-- Of two entries with one key, the older stays unless the other is newer. -/
def newer (old e : RegistryEntry) : RegistryEntry := if updatedMs old < updatedMs e then e else old

def dedupe (registry : List RegistryEntry) : List RegistryEntry :=
  (OrderedMap.collect dedupeKey newer registry).values

/-! ### Panes -/

/-- At most `levels` ancestors. -/
def ancestorPids (ppidMap : Int32 → Option Int32) : Nat → Int32 → List Int32
  | 0, _ => []
  | levels + 1, current =>
      match ppidMap current with
      | none => []
      | some parent =>
          if parent = current ∨ parent ≤ 1 then [] else parent :: ancestorPids ppidMap levels parent

def JoinInputs.zmxByPid (inputs : JoinInputs) (pid : Int32) : Option MuxSession :=
  inputs.zmxSessions.reverse.find? (·.pid = pid)

def JoinInputs.zmxByName (inputs : JoinInputs) (name : String) : Option MuxSession :=
  if inputs.matchLiveByName then inputs.zmxSessions.reverse.find? (·.name = name) else none

/-- The pane of the process or of the nearest of its ancestors that has one. -/
def pidMatch (inputs : JoinInputs) (p : RegistryEntry) : Option MuxSession :=
  p.pid.bind fun pid =>
    (inputs.zmxByPid pid.toInt32).or
      ((ancestorPids inputs.ppidMap 3 pid.toInt32).findSome? inputs.zmxByPid)

def nameMatch (inputs : JoinInputs) (p : RegistryEntry) : Option MuxSession :=
  (nonempty p.name).bind inputs.zmxByName

def zmxMatch (inputs : JoinInputs) (usedZmx : Finset String) (p : RegistryEntry) : Option MuxSession :=
  (pidMatch inputs p).or ((nameMatch inputs p).filter fun z => z.name ∉ usedZmx)

def liveStep (inputs : JoinInputs) (usedZmx : Finset String) (p : RegistryEntry) :
    Session × Finset String :=
  let z := zmxMatch inputs usedZmx p
  (liveSession inputs p z, z.elim usedZmx fun z => insert z.name usedZmx)

def unmatchedZmx (usedZmx : Finset String) (zmxSessions : List MuxSession) :
    OrderedMap String MuxSession :=
  OrderedMap.collect (·.name) (fun _ z => z) (zmxSessions.filter (·.name ∉ usedZmx))

def coldStep (inputs : JoinInputs) (unmatched : String → Option MuxSession) (jf : TranscriptMeta) :
    Session × (String → Option MuxSession) :=
  let name := (inputs.stats (some jf.path)).name
  let z := name.bind unmatched
  (coldSession inputs jf z,
    match name, z with
    | some n, some _ => Function.update unmatched n none
    | _, _ => unmatched)

/-! ### The join -/

def byMtime (transcripts : List TranscriptMeta) : List TranscriptMeta :=
  transcripts.insertionSort fun a b => b.mtimeMs.toInt ≤ a.mtimeMs.toInt

def tombstones (inputs : JoinInputs) (opts : JoinOpts) : List RegistryEntry :=
  if opts.includeTombstoned then inputs.tombstoned else []

/-- The ids of ACP tombstones, which transcripts must leave alone. -/
def acpTombstoneSids (inputs : JoinInputs) (opts : JoinOpts) : List String :=
  ((tombstones inputs opts).filter providerClassIsAcp).filterMap (·.sessionId)

def entrySid (e : RegistryEntry) : String := e.sessionId.getD ""

def joinRows (inputs : JoinInputs) (opts : JoinOpts) : List Session :=
  let deduped := dedupe inputs.registry
  let (live, usedZmx) := emitAll (liveStep inputs) ∅ deduped
  let seen := seenAfter entrySid ∅ deduped
  let unmatched := unmatchedZmx usedZmx inputs.zmxSessions
  let jsonl := keepFirst (·.sessionId) seen
    ((byMtime inputs.transcripts).filter (·.sessionId ∉ acpTombstoneSids inputs opts))
  let (cold, left) := emitAll (coldStep inputs) unmatched.get jsonl
  let seen := seenAfter (·.sessionId) seen jsonl
  let zmxOnly := unmatched.order.filterMap fun n => (left n).map zmxOnlySession
  let tombstoned := keepFirst entrySid seen (tombstones inputs opts)
  let seen := seenAfter entrySid seen tombstoned
  let codex := keepFirst (·.id) seen inputs.codexCold
  let seen := seenAfter (·.id) seen codex
  let pi := keepFirst (·.sessionId) seen inputs.piCold
  let seen := seenAfter (·.sessionId) seen pi
  let opencode := keepFirst (·.id) seen inputs.opencodeCold
  live ++ cold ++ zmxOnly ++ tombstoned.map (tombstonedSession inputs) ++ codex.map codexSession ++
    pi.map (piSession inputs) ++ opencode.map opencodeSession

def Session.lastActive (s : Session) : Int := (s.lastActiveMs.getD 0).toInt

def sortSessions (sessions : List Session) : List Session :=
  sessions.insertionSort fun a b => b.lastActive ≤ a.lastActive

/-- The list is cut at an explicit limit, at 20, or not at all. -/
def JoinOpts.cap (opts : JoinOpts) : Option Nat :=
  match opts.limit.filter (0 < ·) with
  | some n => some n.toInt.toNat
  | none => if opts.includeAll then none else some 20

def takeCap (v : List Session) (cap : Option Nat) : List Session × Nat :=
  match cap with
  | some n => (v.take n, v.length - n)
  | none => (v, 0)

def listed (opts : JoinOpts) (s : Session) : Bool :=
  opts.includeAll || (s.userNamed == some true && s.status != .killed)

def applyListCapCounted (sessions : List Session) (opts : JoinOpts) : List Session × Nat :=
  takeCap (sessions.filter (listed opts)) opts.cap

def joinSessionsCounted (inputs : JoinInputs) (opts : JoinOpts) : List Session × Nat :=
  applyListCapCounted (sortSessions (joinRows inputs opts)) opts

end QuorumDispatch.Sessions
