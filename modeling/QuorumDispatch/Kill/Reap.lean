import Mathlib.Algebra.Order.Ring.Int
import QuorumDispatch.Kill.Process
import QuorumDispatch.Lib.Dialog

/-!
`reap_pane_session`: the pane of a session is killed, and its process, and what runs below it.
Every probe and every signal is a question to the system, and its answer may differ from one
time to the next.
-/

namespace QuorumDispatch.Kill

open Lib
open ProcTable (ZmxWrapper)

/-! ### The system -/

structure MuxSession where
  name : String
  pid : Int32
  socketDir : Option String := none
  ended : Option Int64 := none
  zmxStatus : Option String := none
  err : Option String := none
deriving DecidableEq, Repr

def isAttachable (z : MuxSession) : Bool :=
  z.ended.isNone && z.zmxStatus != some "unreachable" && z.err.isNone

structure RegistryEntry where
  pid : Option Int64 := none
  sessionId : Option String := none
  cwd : Option String := none
  startedAt : Option Int64 := none
  updatedAt : Option Int64 := none
  status : Option String := none
  name : Option String := none
deriving DecidableEq, Repr

structure Session where
  name : Option String := none
  sessionId : String := ""
  pid : Option Int64 := none
  zmxName : Option String := none
  cwd : Option String := none
  startedAtMs : Option Int64 := none
  whichBranch : SessionBranch
deriving DecidableEq, Repr

/-- What the caller hands over: `CLAUDE_BIN`, the socket dirs with the canonical one first, and
the pid of the caller. -/
structure ReapEnv where
  claudeBin : Option String := none
  dirs : List String
  selfPid : Int32

def ReapEnv.sessionBin (env : ReapEnv) : String :=
  match env.claudeBin with
  | some bin => if bin.isEmpty then "claude" else bin
  | none => "claude"

def ReapEnv.canonicalDir (env : ReapEnv) : String := env.dirs.head?.getD ""

inductive Signal where
  | term
  | kill
deriving DecidableEq, Repr

inductive Sender where
  | killPid
  | killPidTree
deriving DecidableEq, Repr

inductive Query where
  | psRows
  | list (dir : String) (raw : Bool)
  | isAlive (pid : Int32)
  | cmdline (pid : Int32)
  | procStart (pid : Int32)
  | isZombie (pid : Int32)
  | deadlinePassed
  | nowMs
  | readEntry (pid : Int64)
  | muxKill (dir name : String)
  | signal (sender : Sender) (pid : Int32) (sig : Signal)
  | tombstone (pid : Int64) (fallback : RegistryEntry)
  | removeEnvFile (name : String)
deriving DecidableEq, Repr

/-- A listing that fails is absent, and a signal that can not be sent is answered `false`. -/
@[reducible] def Answer : Query → Type
  | .psRows => Option ProcTable
  | .list .. => Option (List MuxSession)
  | .isAlive _ | .isZombie _ | .deadlinePassed | .signal .. => Bool
  | .cmdline _ => Option String
  | .procStart _ => Option Int64
  | .nowMs => Int64
  | .readEntry _ => Option RegistryEntry
  | .muxKill .. => Option Int32
  | .tombstone .. | .removeEnvFile _ => Unit

instance (q : Query) : Inhabited (Answer q) := by
  cases q <;> unfold Answer <;> infer_instance

abbrev Reap := Dialog Query Answer

abbrev History := List (Exchange Query Answer)

abbrev ask (q : Query) : Reap (Answer q) := Dialog.query q

/-! ### Probes -/

def isPidAlive (pid : Int32) : Reap Bool := if pid ≤ 0 then pure false else ask (.isAlive pid)

def isPidDead (pid : Int32) : Reap Bool := do
  let alive ← isPidAlive pid
  return !alive

def procStartMs (pid : Int32) : Reap (Option Int64) :=
  if pid ≤ 0 then pure none else ask (.procStart pid)

def procIsZombie (pid : Int32) : Reap Bool := if pid ≤ 0 then pure false else ask (.isZombie pid)

/-- No process has a pid that is larger than an `i32`. -/
def realCmdlineProbe (pid : Int64) : Reap (Option String) :=
  if pid ≤ 0 ∨ Int64.ofInt (2 ^ 31 - 1) < pid then pure none else ask (.cmdline pid.toInt32)

def scanAllDirs (raw : Bool) : List String → Reap (List MuxSession)
  | [] => pure []
  | dir :: dirs => do
      let list : Option (List MuxSession) ← ask (.list dir raw)
      let rest ← scanAllDirs raw dirs
      return list.getD [] ++ rest

/-! ### Signals -/

def killGraceMs : Nat := 3000

def gracePolls : Nat := killGraceMs / 150 + 1

def awaitExit (pid : Int32) : Nat → Reap Bool
  | 0 => pure false
  | n + 1 => do
      let passed : Bool ← ask .deadlinePassed
      if passed then pure false
      else
        let alive ← isPidAlive pid
        if alive then awaitExit pid n else pure true

/-- Whether the process is gone after at most `n` more looks, and a last one. -/
def settle (pid : Int32) : Nat → Reap Bool
  | 0 => isPidDead pid
  | n + 1 => do
      let alive ← isPidAlive pid
      if alive then settle pid n else pure true

def killPid (pid : Int32) : Reap Bool :=
  if pid ≤ 0 then pure true
  else do
    let alive ← isPidAlive pid
    if !alive then pure true
    else
      let sent : Bool ← ask (.signal .killPid pid .term)
      if !sent then isPidDead pid
      else
        let gone ← awaitExit pid gracePolls
        if gone then pure true
        else
          let sent : Bool ← ask (.signal .killPid pid .kill)
          if !sent then isPidDead pid else settle pid 10

def treeKillStartSlackMs : Int64 := 2500

def startMatches (now stamp : Int64) : Bool := (now - stamp).abs ≤ treeKillStartSlackMs

def identityHolds (victim : Int32 × Int64) : Reap Bool := do
  let start ← procStartMs victim.1
  return start.any (startMatches · victim.2)

def deadOrZombie (pid : Int32) : Reap Bool := do
  let alive ← isPidAlive pid
  if alive then procIsZombie pid else pure true

/-- `Vec::retain`. -/
def retain (keep : Int32 × Int64 → Reap Bool) : List (Int32 × Int64) → Reap (List (Int32 × Int64))
  | [] => pure []
  | v :: vs => do
      let kept ← keep v
      let rest ← retain keep vs
      return if kept then v :: rest else rest

def stillRuns (victim : Int32 × Int64) : Reap Bool := do
  let gone ← deadOrZombie victim.1
  return !gone

def stillOurs (victim : Int32 × Int64) : Reap Bool := do
  let gone ← deadOrZombie victim.1
  if gone then pure false else identityHolds victim

def termVictims : List (Int32 × Int64) → Reap (List (Int32 × Int64))
  | [] => pure []
  | v :: vs => do
      let ours ← (if v.1 ≤ 0 then pure false else stillOurs v)
      if ours then
        let _ : Bool ← ask (.signal .killPidTree v.1 .term)
        let rest ← termVictims vs
        return v :: rest
      else termVictims vs

def awaitVictims : Nat → List (Int32 × Int64) → Reap (List (Int32 × Int64))
  | 0, pending => pure pending
  | n + 1, pending =>
      if pending = [] then pure []
      else do
        let passed : Bool ← ask .deadlinePassed
        if passed then pure pending
        else
          let pending ← retain stillRuns pending
          awaitVictims n pending

def killVictims : List (Int32 × Int64) → Reap Unit
  | [] => pure ()
  | v :: vs => do
      let _ : Bool ← ask (.signal .killPidTree v.1 .kill)
      killVictims vs

def settleVictims : Nat → List (Int32 × Int64) → Reap (List (Int32 × Int64))
  | 0, pending => pure pending
  | n + 1, pending => do
      let pending ← retain stillOurs pending
      if pending = [] then pure [] else settleVictims n pending

def killPidTree (victims : List (Int32 × Int64)) : Reap (List Int32) := do
  let pending ← termVictims victims
  let pending ← awaitVictims gracePolls pending
  let pending ← retain stillOurs pending
  killVictims pending
  let left ← settleVictims 10 pending
  return left.map Prod.fst

/-! ### The target -/

structure ZmxReapTarget where
  zmxName : Option String
  zmxDir : Option String
  wrapperPid : Int32 := 0
  zmxDirUnconfirmed : Bool := false
deriving DecidableEq, Repr

def ZmxReapTarget.at (canonicalDir : String) (pane : MuxSession) (wrapperPid : Int32) : ZmxReapTarget :=
  { zmxName := some pane.name, zmxDir := some (pane.socketDir.getD canonicalDir), wrapperPid }

def resolveLive (canonicalDir : String) (pid : Int64) (ownerChain : List Int32) :
    List MuxSession → Reap (Option ZmxReapTarget)
  | [] => pure none
  | pane :: panes => do
      let ownedByRowPid := decide (0 < pid) && pane.pid.toInt64 == pid
      let ownedByAncestry := decide (0 < pane.pid) && ownerChain.contains pane.pid
      let paneDead ← (if 0 < pane.pid then isPidDead pane.pid else pure false)
      if ownedByRowPid || ownedByAncestry || paneDead then
        return some (.at canonicalDir pane 0)
      else resolveLive canonicalDir pid ownerChain panes

def Session.lookupKey (session : Session) : String := (session.zmxName.or session.name).getD ""

def resolveZmxTarget (lookupKey : String) (pid : Int64) (canonicalDir : String)
    (liveList rawList : List MuxSession) (wrapper : Option ZmxWrapper) (ownerChain : List Int32) :
    Reap ZmxReapTarget := do
  let candidates :=
    if lookupKey.isEmpty then [] else liveList.filter fun z => eqIgnoreAsciiCase z.name lookupKey
  let live ← resolveLive canonicalDir pid ownerChain candidates
  match live, (if 0 < pid then wrapper else none) with
  | some target, _ => return target
  | none, some w =>
      return { zmxName := some w.zmxName, zmxDir := some canonicalDir, wrapperPid := w.wrapperPid,
               zmxDirUnconfirmed := true }
  | none, none =>
      let ended :=
        if lookupKey.isEmpty then none
        else rawList.find? fun z =>
          eqIgnoreAsciiCase z.name lookupKey && decide (0 < z.pid) && !isAttachable z
      match ended with
      | some z => return .at canonicalDir z z.pid
      | none => return { zmxName := none, zmxDir := some canonicalDir }

/-- The pid of a dead task is signalled only if it is of a wrapper of the pane now. -/
def guardWrapper (target : ZmxReapTarget) : Reap ZmxReapTarget :=
  if 0 < target.wrapperPid ∧ !target.zmxDirUnconfirmed then do
    let cmdline ← realCmdlineProbe target.wrapperPid.toInt64
    return if wrapperKillAllowed cmdline (target.zmxName.getD "") then target
      else { target with wrapperPid := 0 }
  else pure target

def haveKillTarget (target : ZmxReapTarget) (pid : Int64) : Bool := target.zmxName.isSome || decide (0 < pid)

/-- The witnesses that are derived from the pid are dropped when it is foreign. -/
def gatePidWitnesses (provenance : PidProvenance) (pid : Int64) (alive : Bool)
    (cmdline : Option String) (sessionBin : String) (procStartMs rowStartedAtMs : Option Int64)
    (wrapper : Option ZmxWrapper) (ownerChain : List Int32) :
    Int64 × Option ZmxWrapper × List Int32 × Bool :=
  if provenance = .registry ∧ 0 < pid ∧
      pidIsForeign alive cmdline sessionBin procStartMs rowStartedAtMs then
    (pid, none, [], true)
  else (pid, wrapper, ownerChain, false)

def stampVictims : List Int32 → Reap (List (Int32 × Int64))
  | [] => pure []
  | p :: ps => do
      let start ← procStartMs p
      let rest ← stampVictims ps
      return match start with
        | some s => (p, s) :: rest
        | none => rest

/-! ### The reap -/

inductive Confirmation where
  | yes
  | no
  | unknown
deriving DecidableEq, Repr

structure PaneReapOutcome where
  reaped : Confirmation
  tombstoned : Confirmation
  failures : List String := []
  notes : List String := []
  nothingToKill : Bool := false
  survivorDir : Option String := none
  zmxName : Option String := none
  pid : Int64
  zmxDirUnconfirmed : Bool := false
deriving DecidableEq, Repr

def atTargetDir (target : ZmxReapTarget) (z : MuxSession) : Bool :=
  target.zmxDirUnconfirmed || z.socketDir.isNone || z.socketDir == target.zmxDir

def wrapperAlive (target : ZmxReapTarget) : Reap Bool :=
  if 0 < target.wrapperPid then isPidAlive target.wrapperPid else pure false

/-- Whether the pane, or the wrapper, is there after all looks. -/
def verifyStillThere (env : ReapEnv) (target : ZmxReapTarget) (zmxName : String) : Nat → Reap Bool
  | 0 => pure true
  | n + 1 => do
      let listed ← scanAllDirs false env.dirs
      let inScanned := listed.any fun z => z.name == zmxName && atTargetDir target z
      let alive ← wrapperAlive target
      if inScanned || alive then verifyStillThere env target zmxName n else pure false

def paneFailure (target : ZmxReapTarget) (zmxName : String) (wrapperStillAlive : Bool) (code : Int32) :
    String :=
  if wrapperStillAlive then
    "pane process for \"" ++ zmxName ++ "\" (pid " ++ toString target.wrapperPid ++
      " still alive — leak)"
  else if target.zmxDirUnconfirmed then
    "pane process for \"" ++ zmxName ++ "\" (pid " ++ toString target.wrapperPid ++
      ", socket dir unknown — possible leak)"
  else "mux pane \"" ++ zmxName ++ "\" (mux kill exit " ++ toString code ++ ")"

def killPane (target : ZmxReapTarget) (zmxName : String) : Reap Int32 :=
  match target.zmxDirUnconfirmed, target.zmxDir with
  | false, some dir => do
      let code : Option Int32 ← ask (.muxKill dir zmxName)
      return code.getD 1
  | _, _ => pure 0

def reapZmx (env : ReapEnv) (target : ZmxReapTarget) : Reap (List String) :=
  match target.zmxName with
  | none => pure []
  | some zmxName => do
      let code ← killPane target zmxName
      let _ ← (if 0 < target.wrapperPid then killPid target.wrapperPid else pure true)
      let stillThere ← verifyStillThere env target zmxName 12
      if stillThere then
        let alive ← wrapperAlive target
        return [paneFailure target zmxName alive code]
      else return []

def reapPid (pid : Int64) (pidForeign : Bool) : Reap (List String × List String) :=
  if 0 < pid then
    if pidForeign then do
      let alive ← isPidAlive pid.toInt32
      return (if alive then
        ["note: pid " ++ toString pid ++ " now belongs to a different process (not the session's " ++
          "program) — not signaled; the dead session's record is tombstoned."]
        else [], [])
    else do
      let dead ← killPid pid.toInt32
      return ([], if dead then [] else ["claude process PID " ++ toString pid])
  else pure ([], [])

def reapVictims (victims : List (Int32 × Int64)) : Reap (List String) :=
  if victims = [] then pure []
  else do
    let left ← killPidTree victims
    return left.map fun p => "descendant process PID " ++ toString p ++ " (still alive)"

def fallbackEntry (session : Session) (pid nowMs updatedMs : Int64) : RegistryEntry :=
  { pid := some pid, sessionId := some session.sessionId, cwd := session.cwd,
    startedAt := session.startedAtMs.or (some nowMs), updatedAt := some updatedMs,
    status := some "idle", name := session.name }

/-- `ensure_tombstone`, with the entry that was captured or one that is made up. -/
def writeTombstone (session : Session) (pid : Int64) (captured : Option RegistryEntry) : Reap Unit :=
  match captured with
  | some entry => ask (.tombstone pid entry)
  | none => do
      let now : Int64 ← ask .nowMs
      let updated : Int64 ← ask .nowMs
      ask (.tombstone pid (fallbackEntry session pid now updated))

/-- The tombstone of a process that is dead or foreign; what could not be done. -/
def reapTombstone (session : Session) (pid : Int64) (pidForeign : Bool)
    (captured : Option RegistryEntry) : Reap (Confirmation × List String) :=
  if 0 < pid then do
    let alive ← (if pidForeign then pure false else isPidAlive pid.toInt32)
    if alive then
      return (.no, ["registry tombstone for PID " ++ toString pid ++ " (process still alive)"])
    else
      writeTombstone session pid captured
      return (.unknown, [])
  else pure (.no, [])

/-- Once nothing failed: the env file goes, and the pane is looked for once more. -/
def reapVerify (env : ReapEnv) (session : Session) (target : ZmxReapTarget) : Reap (Option String) := do
  let sessionName := (session.name.or target.zmxName).getD ""
  let _ : Unit ← (if sessionName.isEmpty then pure () else ask (.removeEnvFile sessionName))
  let verifyName := target.zmxName.getD ""
  if verifyName.isEmpty then pure none
  else
    let listed ← scanAllDirs false env.dirs
    return (listed.find? fun z => z.name == verifyName && atTargetDir target z).map fun z =>
      z.socketDir.getD env.canonicalDir

/-- What the reap knows of the recorded process when it starts to kill. -/
structure Gathered where
  table : Option ProcTable
  liveList : List MuxSession
  rawList : List MuxSession
  alive : Bool
  cmdline : Option String
  started : Option Int64

/-- What the recorded pid is: whether it is of a process, and which one. -/
def probePid (pid : Int64) : Reap (Bool × Option String × Option Int64) := do
  let alive ← (if 0 < pid then isPidAlive pid.toInt32 else pure false)
  let cmdline ← (if alive then realCmdlineProbe pid else pure none)
  let started ← (if alive then procStartMs pid.toInt32 else pure none)
  return (alive, cmdline, started)

def gather (env : ReapEnv) (pid : Int64) : Reap Gathered := do
  let table : Option ProcTable ← (if 0 < pid then ask .psRows else pure none)
  let liveList ← scanAllDirs false env.dirs
  let rawList ← scanAllDirs true env.dirs
  let (alive, cmdline, started) ← probePid pid
  return { table, liveList, rawList, alive, cmdline, started }

def Gathered.witnesses (g : Gathered) (env : ReapEnv) (session : Session) (pid : Int64) :
    Int64 × Option ZmxWrapper × List Int32 × Bool :=
  gatePidWitnesses session.whichBranch.provenance pid g.alive g.cmdline env.sessionBin g.started
    session.startedAtMs (g.table.bind (·.findZmxWrapperForPid pid.toInt32))
    (g.table.elim [] (·.ancestorChain pid.toInt32))

def Gathered.sweepRootOk (g : Gathered) (env : ReapEnv) (session : Session) (pid : Int64)
    (pidForeign : Bool) : Bool :=
  decide (0 < pid) && g.alive && !pidForeign &&
    (session.whichBranch.provenance == .paneDerived ||
      sweepRootAllowed g.cmdline env.sessionBin g.started session.startedAtMs)

def Gathered.descendants (g : Gathered) (env : ReapEnv) (session : Session) (pid : Int64)
    (pidForeign : Bool) : List Int32 :=
  if g.sweepRootOk env session pid pidForeign then
    g.table.elim [] (ProcTable.descendantKillList pid.toInt32 env.selfPid)
  else []

def reapTarget (env : ReapEnv) (session : Session) (pid : Int64) (pidForeign : Bool)
    (victims : List (Int32 × Int64)) (target : ZmxReapTarget) : Reap PaneReapOutcome := do
  let captured : Option RegistryEntry ← (if 0 < pid then ask (.readEntry pid) else pure none)
  let paneFailures ← reapZmx env target
  let (notes, pidFailures) ← reapPid pid pidForeign
  let victimFailures ← reapVictims victims
  let (tombstoned, tombstoneFailures) ← reapTombstone session pid pidForeign captured
  let failures := paneFailures ++ pidFailures ++ victimFailures ++ tombstoneFailures
  let survivorDir ← (if failures = [] then reapVerify env session target else pure none)
  let reaped :=
    if failures ≠ [] ∨ survivorDir.isSome then .no
    else if 0 < pid ∧ pidForeign then .unknown
    else Confirmation.yes
  return { reaped, tombstoned, failures, notes, survivorDir, zmxName := target.zmxName, pid,
           zmxDirUnconfirmed := target.zmxDirUnconfirmed }

def reapPaneSession (env : ReapEnv) (session : Session) : Reap PaneReapOutcome := do
  let pid := session.pid.getD 0
  let g ← gather env pid
  let (ownershipPid, wrapper, ownerChain, pidForeign) := g.witnesses env session pid
  let victims ← stampVictims (g.descendants env session pid pidForeign)
  let target ← resolveZmxTarget session.lookupKey ownershipPid env.canonicalDir g.liveList g.rawList
    wrapper ownerChain
  let target ← guardWrapper target
  if haveKillTarget target pid then reapTarget env session pid pidForeign victims target
  else
    return { reaped := .no, tombstoned := .no, nothingToKill := true, pid,
             zmxDirUnconfirmed := target.zmxDirUnconfirmed }

end QuorumDispatch.Kill
