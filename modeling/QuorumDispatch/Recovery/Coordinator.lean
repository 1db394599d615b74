import QuorumDispatch.Recovery.Rung4

/-!
One pass of the coordinator over the row files.

For every row the pass honours the lease, marks a row with too many failures as
`Crit`, and otherwise takes the resume decision, for which it judges the
successor by its lock file alone.
-/

namespace QuorumDispatch.Recovery

/-! ### The liveness lock -/

/-- What `probe_dead` meets at the lock file of a session. -/
inductive LockFile where
  | absent
  | openError
  | free
  | held
  | flockError
deriving DecidableEq, Repr

/-- `livelock::probe_dead`: only a lock that can be taken proves the holder dead. -/
def probeDead : LockFile → Bool
  | .free => true
  | .absent | .openError | .held | .flockError => false

def successorHealthy (locks : String → LockFile) (row : RecoveryRow) : Bool :=
  match row.newSessionId with
  | some nsid => !probeDead (locks nsid)
  | none => false

/-! ### One row -/

inductive RowVerdict where
  | fencedOut
  | standingCrit
  /-- Log `recovery-crit`, then write the row. -/
  | markCrit (row : RecoveryRow)
  | clear (row : RecoveryRow)
  | resumed
  | cold
deriving DecidableEq, Repr

/-- The row is due for the transition into `Crit`. -/
def RecoveryRow.critDue (row : RecoveryRow) : Bool :=
  decide (critConsecutiveFailures ≤ row.consecutiveFailures) && row.ladderState != .crit

def RecoveryRow.cleared (row : RecoveryRow) : RecoveryRow :=
  { row with ladderState := .idle, phase := .idle, ladderOwner := none }

/-- What the body of the pass's loop decides about a row that it has read. -/
def judgeRow (myIncarnation : Nat) (nowMs : Int) (locks : String → LockFile)
    (row : RecoveryRow) : RowVerdict :=
  if !canAcquireLease row.ladderOwner myIncarnation nowMs then .fencedOut
  else if critConsecutiveFailures ≤ row.consecutiveFailures then
    if row.ladderState ≠ .crit then .markCrit { row with ladderState := .crit }
    else .standingCrit
  else
    match resumeAction row (successorHealthy locks row) with
    | .successorHealthy => .clear row.cleared
    | .reArm _ | .reverifySuccessor _ | .resumeKill _ => .resumed
    | .cold => .cold

def leaseStolen (myIncarnation : Nat) (nowMs : Int) (row : RecoveryRow) : Bool :=
  match row.ladderOwner with
  | some o => o.isExpired nowMs && o.coordinatorIncarnation != myIncarnation
  | none => false

theorem judgeRow_eq_clear {inc : Nat} {now : Int} {locks : String → LockFile}
    {row row' : RecoveryRow} (h : judgeRow inc now locks row = .clear row') :
    row' = row.cleared ∧ (row.phase = .spawning ∨ row.phase = .confirming) ∧
      canAcquireLease row.ladderOwner inc now = true ∧
      row.consecutiveFailures < critConsecutiveFailures ∧
      ∃ nsid, row.newSessionId = some nsid ∧ probeDead (locks nsid) = false := by
  unfold judgeRow at h
  split at h
  · cases h
  case isFalse hlease =>
    split at h
    · split at h <;> cases h
    case isFalse hfail =>
      split at h
      case h_1 hact =>
        obtain ⟨hphase, hhealthy⟩ := resumeAction_eq_successorHealthy_iff.mp hact
        refine ⟨by simpa using h.symm, hphase, by simpa using hlease, by omega, ?_⟩
        cases hnew : row.newSessionId with
        | none => simp [successorHealthy, hnew] at hhealthy
        | some nsid => exact ⟨nsid, rfl, by simpa [successorHealthy, hnew] using hhealthy⟩
      all_goals cases h

theorem judgeRow_eq_markCrit {inc : Nat} {now : Int} {locks : String → LockFile}
    {row row' : RecoveryRow} (h : judgeRow inc now locks row = .markCrit row') :
    row' = { row with ladderState := .crit } ∧
      critConsecutiveFailures ≤ row.consecutiveFailures := by
  unfold judgeRow at h
  split at h
  · cases h
  · split at h
    case isTrue hfail =>
      split at h
      · exact ⟨by simpa using h.symm, hfail⟩
      · cases h
    case isFalse => split at h <;> cases h

/-! ### The loop -/

structure PassReport where
  heartbeat : Nat := 0
  rowsSeen : Nat := 0
  leasesStolen : Nat := 0
  fencedOut : Nat := 0
  successorsCleared : Nat := 0
  resumed : Nat := 0
  crit : Nat := 0
  corruptSkipped : Nat := 0
deriving DecidableEq, Repr

/-- The session id of a row file; the heartbeat and temporary files are skipped. -/
def rowSession (name : String) : Option String :=
  match name.dropSuffix? ".json" with
  | some stem =>
      if stem.toString.startsWith "." || stem.toString == "coordinator.heartbeat" then none
      else some stem.toString
  | none => none

/-- A call of `coordinator_pass` with what the file system answers: whether the
heartbeat was written, the names in the directory if it could be read, the lock
files, and which row writes go through. -/
structure PassCall where
  myIncarnation : Nat
  prevHeartbeat : Nat
  nowMs : Int
  bumped : Bool
  entries : Option (List String)
  locks : String → LockFile
  writeOk : String → Bool

def PassCall.sessions (c : PassCall) : List String :=
  (c.entries.getD []).filterMap rowSession

def passRow (c : PassCall) (acc : State × PassReport) (sessionId : String) :
    State × PassReport :=
  let (s, report) := acc
  match readRecoveryRow s.rows sessionId with
  | none => (s, { report with corruptSkipped := report.corruptSkipped + 1 })
  | some row =>
      let verdict := judgeRow c.myIncarnation c.nowMs c.locks row
      let report := { report with
        rowsSeen := report.rowsSeen + 1
        leasesStolen := report.leasesStolen +
          (if verdict ≠ .fencedOut ∧ leaseStolen c.myIncarnation c.nowMs row = true
            then 1 else 0) }
      match verdict with
      | .fencedOut => (s, { report with fencedOut := report.fencedOut + 1 })
      | .standingCrit => (s, { report with crit := report.crit + 1 })
      | .markCrit row' =>
          ((s.did (.critLogged sessionId row.consecutiveFailures)).write row'
              (c.writeOk sessionId),
            { report with crit := report.crit + 1 })
      | .clear row' =>
          ((s.did (.cleared row.newSessionId)).write row' (c.writeOk sessionId),
            { report with successorsCleared := report.successorsCleared + 1 })
      | .resumed => (s, { report with resumed := report.resumed + 1 })
      | .cold => (s, report)

theorem passRow_fst (c : PassCall) (acc : State × PassReport) (sid : String) :
    (passRow c acc sid).1 =
      match readRecoveryRow acc.1.rows sid with
      | none => acc.1
      | some row =>
          match judgeRow c.myIncarnation c.nowMs c.locks row with
          | .markCrit row' =>
              (acc.1.did (.critLogged sid row.consecutiveFailures)).write row' (c.writeOk sid)
          | .clear row' => (acc.1.did (.cleared row.newSessionId)).write row' (c.writeOk sid)
          | .fencedOut | .standingCrit | .resumed | .cold => acc.1 := by
  obtain ⟨s, report⟩ := acc
  cases hread : readRecoveryRow s.rows sid with
  | none => simp [passRow, hread]
  | some row =>
      cases hjudge : judgeRow c.myIncarnation c.nowMs c.locks row <;>
        simp [passRow, hread, hjudge]

/-- `coordinator_pass`; no report stands for an `io::Error`. The counter saturates
at the largest `u64`. -/
def coordinatorPass (c : PassCall) (s : State) : State × Option PassReport :=
  let heartbeat := min (c.prevHeartbeat + 1) (2 ^ 64 - 1)
  if !c.bumped then (s, none)
  else
    let (s, report) := c.sessions.foldl (passRow c) (s, { heartbeat })
    (s, some report)

end QuorumDispatch.Recovery
