import Mathlib.Data.Finset.Insert
import QuorumDispatch.Lib.Text

/-!
The authority journal: one list of entries under one ordinal. The registrar appends to it through
a few calls, each with its preconditions, and `integrity_check` judges a journal that was read.
-/

namespace QuorumDispatch.Conformance

open Lib

/-! ### Entries -/

inductive Lane where
  | claudeCode
  | codex
  | claudeCodeAcp
  | opencode
  | pi
deriving DecidableEq, Repr

inductive RunKind where
  | evidence
  | exercise
deriving DecidableEq, Repr

/-- The context that a run is commissioned under. A run entry holds it as it is. -/
structure CommissioningTuple where
  run : String
  laneScope : Finset Lane
  boxId : String
  releaseCommit : String
  manifestDigest : String
  aggregationVersion : String
  runKind : RunKind
  sequence : Nat
  commissioningIdentity : String
  token : String
deriving DecidableEq

abbrev RunEntry := CommissioningTuple

structure Ruling where
  authorizedBy : String
  noArtifactEvidence : String
deriving DecidableEq, Repr

inductive TerminalState where
  | nonTerminal
  | completed (artifactDigest : String)
  | cancelledPreExecution (reason : String)
  | voided (ruling : Ruling)
  | aborted (ruling : Ruling)
deriving DecidableEq, Repr

structure RunStartEvent where
  run : String
  runnerIdentity : String
  launchNonce : String
  startedAt : String
deriving DecidableEq, Repr

structure TerminalTransition where
  run : String
  terminal : TerminalState
deriving DecidableEq, Repr

inductive DesignationKind where
  | designate
  | pendingReplacement
  | promotion
  | withdrawal
deriving DecidableEq, Repr

inductive DesignationBasisKind where
  | decommissioned
  | durablyUnreachable
  | runnabilityReduced
  | greaterRunnability
deriving DecidableEq, Repr

structure DesignationEvent where
  kind : DesignationKind
  lane : Lane
  boxId : String
  basisKind : Option DesignationBasisKind := none
  policyBasis : String := ""
  rationale : String := ""
  authorizedBy : String := ""
  timestamp : String := ""
deriving DecidableEq, Repr

inductive ContextActivationKind where
  | manifest (digest : String)
  | aggregationVersion (version : String)
deriving DecidableEq, Repr

structure PublicationSnapshotEvent where
  artifactIndexHeadDigest : String
  observedAt : String
deriving DecidableEq, Repr

inductive JournalBody where
  | run (entry : RunEntry)
  | start (event : RunStartEvent)
  | terminal (transition : TerminalTransition)
  | designation (event : DesignationEvent)
  | contextActivation (activation : ContextActivationKind)
  | publicationSnapshot (event : PublicationSnapshotEvent)
deriving DecidableEq

structure JournalEntry where
  ordinal : Nat
  body : JournalBody
deriving DecidableEq

abbrev AuthorityJournal := List JournalEntry

namespace TerminalState

def isTerminal : TerminalState → Bool
  | nonTerminal => false
  | _ => true

def requiresPriorStart : TerminalState → Bool
  | completed _ | aborted _ => true
  | _ => false

def requiresNoPriorStart : TerminalState → Bool
  | cancelledPreExecution _ => true
  | _ => false

def debug : TerminalState → String
  | nonTerminal => "NonTerminal"
  | completed digest =>
      "Completed \x7b artifact_digest: ArtifactDigest(" ++ reprStr digest ++ ") \x7d"
  | cancelledPreExecution reason =>
      "CancelledPreExecution \x7b reason: " ++ reprStr reason ++ " \x7d"
  | voided ruling => "Voided(VoidRuling \x7b authorized_by: " ++ reprStr ruling.authorizedBy ++
      ", no_artifact_evidence: " ++ reprStr ruling.noArtifactEvidence ++ " \x7d)"
  | aborted ruling => "Aborted(AbortRuling \x7b authorized_by: " ++ reprStr ruling.authorizedBy ++
      ", no_artifact_evidence: " ++ reprStr ruling.noArtifactEvidence ++ " \x7d)"

end TerminalState

/-! ### Lookups -/

namespace JournalBody

def run? : JournalBody → Option RunEntry
  | run entry => some entry
  | _ => none

def start? : JournalBody → Option RunStartEvent
  | start event => some event
  | _ => none

def terminal? : JournalBody → Option TerminalTransition
  | terminal transition => some transition
  | _ => none

end JournalBody

namespace AuthorityJournal

variable (j : AuthorityJournal)

def nextValue : Nat := (j.map (·.ordinal)).max?.getD 0 + 1

def runEntries : List RunEntry := j.filterMap (·.body.run?)

def runEntry (run : String) : Option RunEntry :=
  j.findSome? fun e => e.body.run?.filter (·.run == run)

def startEvent (run : String) : Option RunStartEvent :=
  j.findSome? fun e => e.body.start?.filter (·.run == run)

def startOrdinal (run : String) : Option Nat :=
  j.findSome? fun e => (e.body.start?.filter (·.run == run)).map fun _ => e.ordinal

def hasStartEvent (run : String) : Bool := j.any fun e => e.body.start?.any (·.run == run)

def terminalEvent (run : String) : Option TerminalTransition :=
  j.findSome? fun e => e.body.terminal?.filter (·.run == run)

def terminalState (run : String) : TerminalState :=
  ((j.terminalEvent run).map (·.terminal)).getD .nonTerminal

def tokenExists (token : String) : Bool := j.any fun e => e.body.run?.any (·.token == token)

def nonceExists (nonce : String) : Bool := j.any fun e => e.body.start?.any (·.launchNonce == nonce)

end AuthorityJournal

def blank (s : String) : Bool := (trim s.toList).isEmpty

/-! ### The calls -/

structure Commission where
  run : String
  laneScope : Finset Lane
  boxId : String
  releaseCommit : String
  manifestDigest : String
  aggregationVersion : String
  runKind : RunKind
  commissioningIdentity : String

def Commission.tuple (c : Commission) (sequence : Nat) (token : String) : CommissioningTuple where
  run := c.run
  laneScope := c.laneScope
  boxId := c.boxId
  releaseCommit := c.releaseCommit
  manifestDigest := c.manifestDigest
  aggregationVersion := c.aggregationVersion
  runKind := c.runKind
  sequence := sequence
  commissioningIdentity := c.commissioningIdentity
  token := token

namespace AuthorityJournal

variable (j : AuthorityJournal)

def append (body : JournalBody) : AuthorityJournal := j ++ [⟨j.nextValue, body⟩]

def commissionRun (c : Commission) (minted : String) :
    Except String CommissioningTuple × AuthorityJournal :=
  if j.any fun e => e.body.run?.any (·.run == c.run) then
    (.error ("authority journal: duplicate run id " ++ reprStr c.run ++
      " — rejected (a replayed/duplicate entry is never honored, N-1)"), j)
  else if blank minted then
    (.error "authority journal: registrar minted an empty commission token", j)
  else if j.tokenExists minted then
    (.error ("authority journal: commission token " ++ reprStr minted ++
      " collides with an existing entry — rejected"), j)
  else
    (.ok (c.tuple j.nextValue minted), j.append (.run (c.tuple j.nextValue minted)))

def startRunAt (run runnerIdentity startedAt minted : String) :
    Except String String × AuthorityJournal :=
  match j.runEntry run with
  | none => (.error ("authority journal: no run entry for " ++ reprStr run), j)
  | some entry =>
      if j.hasStartEvent run then
        (.error ("authority journal: run " ++ reprStr run ++
          " already has a run-start event — at most one per entry"), j)
      else if entry.runKind = .evidence ∧ runnerIdentity = entry.commissioningIdentity then
        (.error ("authority journal: run " ++ reprStr run ++ " — commissioning identity equals " ++
          "runner identity on an evidence-kind run — structurally invalid (R6-6)"), j)
      else if blank minted then
        (.error "authority journal: registrar minted an empty launch nonce", j)
      else if j.nonceExists minted then
        (.error ("authority journal: launch nonce " ++ reprStr minted ++
          " collides with an existing entry — rejected (R7-2 uniqueness)"), j)
      else
        (.ok minted, j.append (.start ⟨run, runnerIdentity, minted, startedAt⟩))

def designate (event : DesignationEvent) : Nat × AuthorityJournal :=
  (j.nextValue, j.append (.designation event))

def activateContext (kind : ContextActivationKind) : Nat × AuthorityJournal :=
  (j.nextValue, j.append (.contextActivation kind))

def publishSnapshot (artifactIndexHeadDigest observedAt : String) : Nat × AuthorityJournal :=
  (j.nextValue, j.append (.publicationSnapshot ⟨artifactIndexHeadDigest, observedAt⟩))

def markTerminal (run : String) (terminal : TerminalState) :
    Except String Unit × AuthorityJournal :=
  if terminal.isTerminal = false then
    (.error ("authority journal: run " ++ reprStr run ++ " — NonTerminal is not a terminal " ++
      "disposition and cannot be recorded as one"), j)
  else if (j.runEntry run).isNone then
    (.error ("authority journal: no run entry for " ++ reprStr run), j)
  else if (j.terminalEvent run).isSome then
    (.error ("authority journal: run " ++ reprStr run ++ " is already terminal (" ++
      (j.terminalState run).debug ++ ") — no overwrite (corrections are new events, N-1)"), j)
  else if terminal.requiresPriorStart && !j.hasStartEvent run then
    (.error ("authority journal: run " ++ reprStr run ++ " — " ++ terminal.debug ++
      " requires a prior run-start event (R6-6: completion/abort is the fate of a STARTED entry)"),
      j)
  else if terminal.requiresNoPriorStart && j.hasStartEvent run then
    (.error ("authority journal: run " ++ reprStr run ++
      " — cancellation after a run-start event is structurally invalid (R6-6)"), j)
  else
    (.ok (), j.append (.terminal ⟨run, terminal⟩))

end AuthorityJournal

inductive Call where
  | commissionRun (c : Commission) (minted : String)
  | startRunAt (run runnerIdentity startedAt minted : String)
  | markTerminal (run : String) (terminal : TerminalState)
  | designate (event : DesignationEvent)
  | activateContext (kind : ContextActivationKind)
  | publishSnapshot (artifactIndexHeadDigest observedAt : String)

def Call.apply (j : AuthorityJournal) : Call → Bool × AuthorityJournal
  | commissionRun c minted => let (r, j') := j.commissionRun c minted; (r.isOk, j')
  | startRunAt run runnerIdentity startedAt minted =>
      let (r, j') := j.startRunAt run runnerIdentity startedAt minted
      (r.isOk, j')
  | markTerminal run terminal => let (r, j') := j.markTerminal run terminal; (r.isOk, j')
  | designate event => (true, (j.designate event).2)
  | activateContext kind => (true, (j.activateContext kind).2)
  | publishSnapshot digest observedAt => (true, (j.publishSnapshot digest observedAt).2)

def AuthorityJournal.call (j : AuthorityJournal) (c : Call) : AuthorityJournal := (c.apply j).2

/-! ### The check -/

structure Seen where
  prev : Option Nat := none
  ords : List Nat := []
  runs : List String := []
  toks : List String := []
  startRuns : List String := []
  terminalRuns : List String := []
  nonces : List String := []

def flag (bad : Bool) (message : String) : List String := if bad then [message] else []

def Seen.next (seen : Seen) (e : JournalEntry) : Seen :=
  let seen := { seen with prev := some e.ordinal, ords := e.ordinal :: seen.ords }
  match e.body with
  | .run r => { seen with
      runs := r.run :: seen.runs
      toks := if blank r.token then seen.toks else r.token :: seen.toks }
  | .start s => { seen with
      startRuns := s.run :: seen.startRuns
      nonces := if blank s.launchNonce then seen.nonces else s.launchNonce :: seen.nonces }
  | .terminal t => { seen with terminalRuns := t.run :: seen.terminalRuns }
  | _ => seen

namespace AuthorityJournal

variable (j : AuthorityJournal) (seen : Seen) (ord : Nat)

def checkOrdinal : List String :=
  flag (seen.prev.any fun p => ord ≤ p) ("ordinals not strictly increasing: " ++ toString ord ++
      " follows " ++ toString (seen.prev.getD 0)) ++
    flag (seen.ords.contains ord) ("duplicate ordinal " ++ toString ord)

def checkRun (r : RunEntry) : List String :=
  flag (seen.runs.contains r.run) ("duplicate run id " ++ reprStr r.run) ++
    (if blank r.token then ["empty commission token on run " ++ reprStr r.run]
      else flag (seen.toks.contains r.token) ("duplicate commission token " ++ reprStr r.token)) ++
    flag (r.sequence != ord) ("run " ++ reprStr r.run ++ " sequence " ++ toString r.sequence ++
      " != ordinal " ++ toString ord ++ " (one-domain invariant violated)")

def checkStart (s : RunStartEvent) : List String :=
  flag (seen.startRuns.contains s.run) ("run " ++ reprStr s.run ++
      " has more than one run-start event (R6-6: at most one per entry)") ++
    (if blank s.launchNonce then ["empty launch nonce on run-start for " ++ reprStr s.run]
      else flag (seen.nonces.contains s.launchNonce) ("duplicate launch nonce " ++
        reprStr s.launchNonce ++ " (R7-2: unique across the journal)")) ++
    match j.runEntry s.run with
    | some entry =>
        flag (entry.runKind = .evidence && s.runnerIdentity == entry.commissioningIdentity)
          ("run " ++ reprStr s.run ++ ": commissioning identity equals runner identity on an " ++
            "evidence-kind run (R6-6)") ++
        flag (ord ≤ entry.sequence) ("run " ++ reprStr s.run ++ ": run-start ordinal " ++
          toString ord ++ " not strictly after its commissioning ordinal " ++
          toString entry.sequence ++ " (start redeems a prior commission)")
    | none => ["run-start event for " ++ reprStr s.run ++
        " has no matching run-commissioning entry"]

def checkTerminal (t : TerminalTransition) : List String :=
  flag (seen.terminalRuns.contains t.run) ("run " ++ reprStr t.run ++ " has more than one " ++
      "terminal transition event (a disposition is recorded once, N-1)") ++
    flag (!t.terminal.isTerminal) ("run " ++ reprStr t.run ++
      ": terminal transition event carries a non-terminal state (malformed)") ++
    (match j.runEntry t.run with
    | some entry => flag (ord ≤ entry.sequence) ("run " ++ reprStr t.run ++
        ": terminal ordinal " ++ toString ord ++ " not strictly after its commissioning ordinal " ++
        toString entry.sequence ++ " (R9: terminal is a later event)")
    | none => ["terminal transition for " ++ reprStr t.run ++
        " has no matching run-commissioning entry"]) ++
    (match j.startOrdinal t.run with
    | some startOrd => flag (ord ≤ startOrd) ("run " ++ reprStr t.run ++ ": terminal ordinal " ++
        toString ord ++ " not strictly after its run-start ordinal " ++ toString startOrd ++
        " (R6-6/R9)")
    | none => []) ++
    flag (t.terminal.requiresPriorStart && !j.hasStartEvent t.run) ("run " ++ reprStr t.run ++
      ": " ++ t.terminal.debug ++ " requires a prior run-start event (R6-6)") ++
    flag (t.terminal.requiresNoPriorStart && j.hasStartEvent t.run) ("run " ++ reprStr t.run ++
      ": cancellation after a run-start event is structurally invalid (R6-6)")

def checkEntry (e : JournalEntry) : List String :=
  checkOrdinal seen e.ordinal ++
    match e.body with
    | .run r => checkRun seen e.ordinal r
    | .start s => j.checkStart seen e.ordinal s
    | .terminal t => j.checkTerminal seen e.ordinal t
    | _ => []

def checkEntries : Seen → List JournalEntry → List String
  | _, [] => []
  | seen, e :: es => j.checkEntry seen e ++ checkEntries (seen.next e) es

def integrityCheck : Except (List String) Unit :=
  match j.checkEntries {} j with
  | [] => .ok ()
  | errs => .error errs

end AuthorityJournal

end QuorumDispatch.Conformance
