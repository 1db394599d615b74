import QuorumDispatch.Recovery.Row

/-!
The destructive rung, one effect at a time.

`execute_rung4` writes the row ahead of every irreversible step: `Killing` ahead
of the kill, `Tombstoned` after the old entry is out of the way, `Spawning` with
the minted id ahead of the spawn, `Confirming` after it. Here the call is a
program counter whose constructors name the effect that is due, so that a crash
can fall between any two of them. What the injected effects answer is supplied
from outside at each step.
-/

namespace QuorumDispatch.Recovery

inductive Rung4Outcome where
  | recovered (newSessionId : String) (successorPid : Int)
  | abortedIdentityMismatch
  | abortedReusedPidRow (onDiskStartedAt : Option Int)
  | spawnFailed (newSessionId : String)
  | successorUnconfirmed (newSessionId : String) (successorPid : Int)
deriving DecidableEq, Repr

inductive Pc where
  | writeKilling
  | fence
  | kill
  | tombstone
  /-- A fence refused: write the idle row and return. -/
  | abort (outcome : Rung4Outcome)
  | writeTombstoned
  | mint
  | writeSpawning (newSid : String)
  | spawn (newSid : String)
  | writeConfirming (newSid : String) (successorPid : Int)
  | confirm (newSid : String) (successorPid : Int)
  | writeRecovered (newSid : String) (successorPid : Int)
deriving DecidableEq, Repr

inductive KillAnswer where
  | killed
  | noSuchProcess
  | failed
deriving DecidableEq, Repr

/-- What the injected effects and the file system answer at a step; a step reads
the fields it needs. -/
structure Answer where
  writeOk : Bool := true
  currentStartMs : Option Int := none
  kill : KillAnswer := .killed
  entry : Option (Option Int) := none
  renamed : Bool := true
  mint : Option String := none
  spawn : Option Int := none
  confirmReady : Bool := false
  pastDeadline : Bool := false

inductive Deed where
  | wrote (row : RecoveryRow)
  | readStart (pid : Int) (startMs : Option Int)
  | killed (sessionId : String) (old : Identity)
  | spawned (sessionId newSessionId : String) (ok : Bool)
  /-- A pass takes the row for recovered, its successor being the recorded one. -/
  | cleared (newSessionId : Option String)
  | critLogged (sessionId : String) (consecutiveFailures : Nat)
deriving DecidableEq, Repr

/-- A call of `execute_rung4` in progress, with its own copy of the row. -/
structure Exec where
  row : RecoveryRow
  old : Identity
  oldRowStartedAt : Option Int
  pc : Pc
deriving DecidableEq, Repr

structure State where
  rows : Rows := fun _ => none
  exec : Option Exec := none
  results : List (Option Rung4Outcome) := []
  log : List Deed := []

namespace State

def did (s : State) (d : Deed) : State := { s with log := s.log ++ [d] }

def write (s : State) (row : RecoveryRow) (ok : Bool) : State :=
  { s with
    rows := writeRecoveryRow s.rows row ok
    log := if ok then s.log ++ [.wrote row] else s.log }

/-- The call goes on at `pc` with its row as given. -/
def goto (s : State) (e : Exec) (row : RecoveryRow) (pc : Pc) : State :=
  { s with exec := some { e with row, pc } }

/-- The call returns; `none` stands for an `io::Error`. -/
def finish (s : State) (result : Option Rung4Outcome) : State :=
  { s with exec := none, results := s.results ++ [result] }

/-- `write_recovery_row(..)?`: go on if the write went through, else return. -/
def writeThen (s : State) (row : RecoveryRow) (ok : Bool) (next : State → State) : State :=
  if ok then next (s.write row ok) else (s.write row ok).finish none

end State

def RecoveryRow.idled (row : RecoveryRow) : RecoveryRow :=
  { row with phase := .idle, ladderState := .idle }

/-- One effect of `execute_rung4`. -/
def rung4Step (s : State) (e : Exec) (a : Answer) : State :=
  match e.pc with
  | .writeKilling =>
      let row := { e.row with
        ladderState := .running .respawn
        phase := .killing
        oldIdentity := some e.old }
      s.writeThen row a.writeOk (·.goto e row .fence)
  | .fence =>
      let s := s.did (.readStart e.old.pid a.currentStartMs)
      match a.currentStartMs with
      | some cur =>
          if startTimeDrifted cur e.old.startMs then
            s.goto e e.row (.abort .abortedIdentityMismatch)
          else s.goto e e.row .kill
      | none => s.goto e e.row .kill
  | .kill =>
      let s := s.did (.killed e.row.sessionId e.old)
      match a.kill with
      | .killed | .noSuchProcess => s.goto e e.row .tombstone
      | .failed => s.finish none
  | .tombstone =>
      match tombstoneGuarded e.oldRowStartedAt a.entry a.renamed with
      | .tombstoned | .absent => s.goto e e.row .writeTombstoned
      | .refused onDisk => s.goto e e.row (.abort (.abortedReusedPidRow onDisk))
  | .abort outcome => s.writeThen e.row.idled a.writeOk (·.finish (some outcome))
  | .writeTombstoned =>
      let row := { e.row with phase := .tombstoned }
      s.writeThen row a.writeOk (·.goto e row .mint)
  | .mint =>
      match a.mint with
      | some newSid => s.goto e e.row (.writeSpawning newSid)
      | none => s.finish none
  | .writeSpawning newSid =>
      let row := { e.row with newSessionId := some newSid, phase := .spawning }
      s.writeThen row a.writeOk (·.goto e row (.spawn newSid))
  | .spawn newSid =>
      let s := s.did (.spawned e.row.sessionId newSid a.spawn.isSome)
      match a.spawn with
      | some pid => s.goto e e.row (.writeConfirming newSid pid)
      | none => s.finish (some (.spawnFailed newSid))
  | .writeConfirming newSid pid =>
      let row := { e.row with phase := .confirming }
      s.writeThen row a.writeOk (·.goto e row (.confirm newSid pid))
  | .confirm newSid pid =>
      if a.confirmReady then s.goto e e.row (.writeRecovered newSid pid)
      else if a.pastDeadline then s.finish (some (.successorUnconfirmed newSid pid))
      else s
  | .writeRecovered newSid pid =>
      let row := { e.row.idled with consecutiveFailures := 0 }
      s.writeThen row a.writeOk (·.finish (some (.recovered newSid pid)))

end QuorumDispatch.Recovery
