import Mathlib.Algebra.Order.Ring.Int
import Mathlib.Algebra.Order.Group.Int
import Mathlib.Algebra.Order.Group.Unbundled.Abs
import Mathlib.Logic.Function.Basic

/-!
The recovery row and the decisions of the ladder that are pure: the lease, the
strike counter, the resume decision, and the two identity fences of the
destructive rung.

A row lives in `recovery/<session_id>.json`. It is replaced by a rename, so a
reader sees a whole row or, for a missing or unparseable file, none.
-/

namespace QuorumDispatch.Recovery

inductive Rung where
  | pidfdSignal
  | controlWake
  | ptyInject
  | respawn
deriving DecidableEq, Repr

namespace Rung

def deadlineMs : Rung → Int
  | pidfdSignal => 5000
  | controlWake => 10000
  | ptyInject => 15000
  | respawn => 96000

def isDestructive : Rung → Bool
  | respawn => true
  | _ => false

end Rung

inductive LadderState where
  | idle
  | running (rung : Rung)
  | crit
deriving DecidableEq, Repr

def critConsecutiveFailures : Nat := 3

/-- The identity of a session's process: `i32`, `i64` and `u64` in the source. -/
structure Identity where
  pid : Int
  startMs : Int
  incarnation : Nat
deriving DecidableEq, Repr

inductive Phase where
  | idle
  | killing
  | tombstoned
  | spawning
  | confirming
deriving DecidableEq, Repr

/-! ### The lease -/

structure LadderOwner where
  coordinatorIncarnation : Nat
  expiryMs : Int
deriving DecidableEq, Repr

namespace LadderOwner

/-- `LadderOwner::new`: a fresh lease covers the longest rung and some grace. -/
def fresh (coordinatorIncarnation : Nat) (nowMs graceMs : Int) : LadderOwner :=
  { coordinatorIncarnation, expiryMs := nowMs + Rung.respawn.deadlineMs + graceMs }

def isExpired (o : LadderOwner) (nowMs : Int) : Bool := decide (o.expiryMs ≤ nowMs)

end LadderOwner

def canAcquireLease (current : Option LadderOwner) (myIncarnation : Nat) (nowMs : Int) : Bool :=
  match current with
  | none => true
  | some o => o.isExpired nowMs || o.coordinatorIncarnation == myIncarnation

/-! ### The row -/

def recoveryRowVersion : Nat := 1

structure RecoveryRow where
  version : Nat := recoveryRowVersion
  sessionId : String
  ladderOwner : Option LadderOwner := none
  ladderState : LadderState := .idle
  phase : Phase := .idle
  oldIdentity : Option Identity := none
  newSessionId : Option String := none
  consecutiveFailures : Nat := 0
  lastAttemptMs : Option Int := none
  daemonUpMs : Option Int := none
  tauOverrideMs : Option Int := none
deriving DecidableEq, Repr

/-- `RecoveryRow::cold`. -/
def RecoveryRow.cold (sessionId : String) : RecoveryRow := { sessionId }

abbrev Rows := String → Option RecoveryRow

/-- `read_recovery_row`. -/
def readRecoveryRow (rows : Rows) (sessionId : String) : Option RecoveryRow := rows sessionId

/-- `write_recovery_row`: the file is named by the row's own session id, and a
write that fails leaves the file as it was. -/
def writeRecoveryRow (rows : Rows) (row : RecoveryRow) (ok : Bool) : Rows :=
  if ok then Function.update rows row.sessionId (some row) else rows

@[simp] theorem writeRecoveryRow_self (rows : Rows) (row : RecoveryRow) :
    writeRecoveryRow rows row true row.sessionId = some row := by
  simp [writeRecoveryRow]

theorem of_writeRecoveryRow {rows : Rows} {row found : RecoveryRow} {ok : Bool} {sid : String}
    (h : writeRecoveryRow rows row ok sid = some found) :
    (ok = true ∧ sid = row.sessionId ∧ found = row) ∨ rows sid = some found := by
  cases ok with
  | false => exact .inr h
  | true =>
      by_cases hsid : sid = row.sessionId
      · subst hsid
        exact .inl ⟨rfl, rfl, by simpa using h.symm⟩
      · right
        simpa [writeRecoveryRow, Function.update_of_ne hsid] using h

/-! ### The resume decision -/

inductive ResumeAction where
  | cold
  | reArm (rung : Rung)
  | reverifySuccessor (newSessionId : String)
  | resumeKill (oldIdentity : Option Identity)
  | successorHealthy
deriving DecidableEq, Repr

def resumeAction (row : RecoveryRow) (successorHealthy : Bool) : ResumeAction :=
  match row.phase with
  | .idle =>
      match row.ladderState with
      | .running rung => if rung.isDestructive then .cold else .reArm rung
      | _ => .cold
  | .killing | .tombstoned => .resumeKill row.oldIdentity
  | .spawning | .confirming =>
      if successorHealthy then .successorHealthy
      else
        match row.newSessionId with
        | some nsid => .reverifySuccessor nsid
        | none => .resumeKill row.oldIdentity

theorem resumeAction_eq_successorHealthy_iff {row : RecoveryRow} {healthy : Bool} :
    resumeAction row healthy = .successorHealthy ↔
      (row.phase = .spawning ∨ row.phase = .confirming) ∧ healthy = true := by
  unfold resumeAction
  cases hphase : row.phase <;> cases healthy <;> simp
  all_goals split <;> try simp
  all_goals split <;> simp

theorem resumeAction_eq_cold_iff {row : RecoveryRow} {healthy : Bool} :
    resumeAction row healthy = .cold ↔
      row.phase = .idle ∧ ∀ rung, row.ladderState = .running rung → rung.isDestructive = true := by
  unfold resumeAction
  cases hphase : row.phase <;> cases healthy <;> simp
  all_goals split <;> simp_all

/-! ### The identity fences -/

/-- `kill::START_TIME_SLACK_MS`. -/
def startTimeSlackMs : Int := 120000

/-- The two's complement reading of a sum or difference of `i64` values. -/
def wrapI64 (x : Int) : Int := Int.bmod x (2 ^ 64)

/-- The first fence: the live process started too far from the recorded start,
`(cur - old.start_ms).abs() > START_TIME_SLACK_MS` over `i64`. -/
def startTimeDrifted (cur startMs : Int) : Bool :=
  decide (startTimeSlackMs < wrapI64 |wrapI64 (cur - startMs)|)

/-- The difference of two start times is an `i64` whose absolute value is one too. -/
def DriftFits (cur startMs : Int) : Prop := |cur - startMs| < 2 ^ 63

instance (cur startMs : Int) : Decidable (DriftFits cur startMs) :=
  inferInstanceAs (Decidable (|cur - startMs| < 2 ^ 63))

theorem wrapI64_eq_self {x : Int} (hlo : -2 ^ 63 ≤ x) (hhi : x < 2 ^ 63) : wrapI64 x = x := by
  unfold wrapI64
  rw [Int.bmod_eq_of_le] <;> omega

theorem startTimeDrifted_iff {cur startMs : Int} (hfits : DriftFits cur startMs) :
    startTimeDrifted cur startMs = true ↔ startTimeSlackMs < |cur - startMs| := by
  have hbounds := abs_lt.mp hfits
  have habs : wrapI64 |cur - startMs| = |cur - startMs| :=
    wrapI64_eq_self (by have := abs_nonneg (cur - startMs); omega) hfits
  have hdiff : wrapI64 (cur - startMs) = cur - startMs :=
    wrapI64_eq_self (by omega) (by omega)
  simp [startTimeDrifted, hdiff, habs]

inductive TombstoneOutcome where
  | tombstoned
  | absent
  | refused (onDiskStartedAt : Option Int)
deriving DecidableEq, Repr

/-- `registry::tombstone_guarded` on what it reads: `entry` is the `started_at`
of the registry entry if there is one, `renamed` whether the rename succeeded. -/
def tombstoneGuarded (expectedStartedAt : Option Int) (entry : Option (Option Int))
    (renamed : Bool) : TombstoneOutcome :=
  match expectedStartedAt, entry with
  | some expected, some (some disk) =>
      if disk ≠ expected then .refused (some disk)
      else if renamed then .tombstoned else .absent
  | _, _ => if renamed then .tombstoned else .absent

end QuorumDispatch.Recovery
