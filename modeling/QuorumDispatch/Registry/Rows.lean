import Mathlib.Logic.Function.Basic
import QuorumDispatch.Lib.Partial

/-!
The rows of the registry. A row is a file named by the pid of its session, written whole by
a rename; a tombstone is the row renamed aside. Status updates and guarded tombstones read
the row, compare its start stamp with the one that they assert, and rename.

Any number of these operations interleave at their reads and renames.
-/

namespace QuorumDispatch.Registry

open Lib

/-- A row; the fields that no operation looks at are in `rest`. -/
structure Entry (α : Type) where
  pid : Option Int
  startedAt : Option Int
  updatedAt : Option Int
  status : Option String
  rest : α
deriving DecidableEq, Repr

inductive Op (α : Type) where
  | writeEntry (entry : Entry α)
  | setStatus (pid : Int) (expectedStartedAt : Option Int) (status : String) (nowMs : Int)
  | tombstone (pid : Int)
  | tombstoneGuarded (pid : Int) (expectedStartedAt : Option Int)
  | ensureTombstoneGuarded (pid : Int) (captured : Option (Entry α)) (expectedStartedAt : Option Int)
deriving DecidableEq, Repr

def Op.guarded {α : Type} : Op α → Option (Int × Option Int)
  | .setStatus pid expected _ _ => some (pid, expected)
  | .tombstoneGuarded pid expected => some (pid, expected)
  | .ensureTombstoneGuarded pid _ expected => some (pid, expected)
  | .writeEntry _ | .tombstone _ => none

inductive Outcome where
  | written
  | rejected (onDiskStartedAt : Int)
  | noRow
  | tombstoned
  | absent
  | refused (onDiskStartedAt : Int)
  | failed
deriving DecidableEq, Repr

/-- What an operation does next, with the row that it has read. -/
inductive RowPhase (α : Type) where
  | starting
  | guarding
  | writing (read : Entry α)
  | tombstoning (read : Option (Entry α))
  | synthesizing (captured : Entry α)
  | done (outcome : Outcome)
deriving DecidableEq, Repr

/-- The row that a guarded operation has read and is about to rename. -/
def RowPhase.seen {α : Type} : RowPhase α → Option (Option (Entry α))
  | .writing read => some (some read)
  | .tombstoning read => some read
  | _ => none

structure Rows (α : Type) where
  live : Int → Option (Entry α) := fun _ => none
  tombstoned : Int → Option (Entry α) := fun _ => none
  ops : List (Op α) := []
  phase : Nat → RowPhase α := fun _ => .starting

variable {α : Type}

def conflict (onDisk expected : Option Int) : Option Int := do
  let disk ← onDisk
  let expected ← expected
  if disk ≠ expected then some disk else none

namespace Rows

def setPhase (s : Rows α) (k : Nat) (phase : RowPhase α) : Rows α :=
  { s with phase := Function.update s.phase k phase }

def renameInto (s : Rows α) (pid : Int) (entry : Entry α) : Rows α :=
  { s with live := Function.update s.live pid (some entry) }

def renameAside (s : Rows α) (pid : Int) (row : Entry α) : Rows α :=
  { s with
    live := Function.update s.live pid none
    tombstoned := Function.update s.tombstoned pid (some row) }

/-- `write_entry`: the row's own pid names the file. -/
def writeEntry (s : Rows α) (k : Nat) (entry : Entry α) : Rows α :=
  match entry.pid with
  | some pid => (s.renameInto pid entry).setPhase k (.done .written)
  | none => s.setPhase k (.done .failed)

/-- The read of `set_status`. -/
def readStatus (s : Rows α) (k : Nat) (pid : Int) (expected : Option Int) : Rows α :=
  match s.live pid with
  | none => s.setPhase k (.done .noRow)
  | some entry =>
      match conflict entry.startedAt expected with
      | some disk => s.setPhase k (.done (.rejected disk))
      | none => s.setPhase k (.writing entry)

/-- The read of `tombstone_guarded`. -/
def readGuarded (s : Rows α) (k : Nat) (pid : Int) (expected : Option Int) : Rows α :=
  match conflict ((s.live pid).bind Entry.startedAt) expected with
  | some disk => s.setPhase k (.done (.refused disk))
  | none => s.setPhase k (.tombstoning (s.live pid))

/-- The rename of the tombstones, with the row that is written if there is none. -/
def renameGuarded (s : Rows α) (k : Nat) (pid : Int) (captured : Option (Entry α)) : Rows α :=
  match s.live pid, captured with
  | some row, _ => (s.renameAside pid row).setPhase k (.done .tombstoned)
  | none, some captured => s.setPhase k (.synthesizing captured)
  | none, none => s.setPhase k (.done .absent)

def advance? (s : Rows α) (k : Nat) : Op α → Option (Rows α)
  | .writeEntry entry =>
      match s.phase k with
      | .starting => some (s.writeEntry k entry)
      | _ => none
  | .setStatus pid expected status nowMs =>
      match s.phase k with
      | .starting => some (s.readStatus k pid expected)
      | .writing read =>
          some (s.writeEntry k { read with status := some status, updatedAt := some nowMs })
      | _ => none
  | .tombstone pid =>
      match s.phase k with
      | .starting => some (s.renameGuarded k pid none)
      | _ => none
  | .tombstoneGuarded pid expected =>
      match s.phase k with
      | .starting => some (s.readGuarded k pid expected)
      | .tombstoning _ => some (s.renameGuarded k pid none)
      | _ => none
  | .ensureTombstoneGuarded pid captured expected =>
      match s.phase k with
      | .starting =>
          match s.tombstoned pid with
          | some _ => some (s.setPhase k (.done .tombstoned))
          | none => some (s.setPhase k .guarding)
      | .guarding => some (s.readGuarded k pid expected)
      | .tombstoning _ => some (s.renameGuarded k pid captured)
      | .synthesizing captured =>
          some ({ s with tombstoned := Function.update s.tombstoned pid (some captured) }.setPhase k
            (.done .absent))
      | _ => none

inductive Step (α : Type) where
  | call (op : Op α)
  | advance (k : Nat)
deriving DecidableEq, Repr

def step? (s : Rows α) : Step α → Option (Rows α)
  | .call op => some ({ s with ops := s.ops ++ [op] }.setPhase s.ops.length .starting)
  | .advance k => do
      let op ← s.ops[k]?
      s.advance? k op

def run? (s : Rows α) (steps : List (Step α)) : Option (Rows α) := steps.foldlM step? s

/-! ### The fence -/

/-- The row that a guarded operation renames is the one that it has read. -/
def unraced [DecidableEq α] (s : Rows α) : Step α → Bool
  | .call _ => true
  | .advance k =>
      match s.ops[k]?.bind Op.guarded, (s.phase k).seen with
      | some (pid, _), some read => s.live pid = read
      | _, _ => true

/-- A step of an operation that asserts another start stamp leaves the live row as it is,
and a status update does not bring a row back that is gone. -/
structure Fenced (s : Rows α) (e : Step α) (s' : Rows α) : Prop where
  asserted : ∀ k op pid old row stamp, e = .advance k → s.ops[k]? = some op →
    op.guarded = some (pid, some old) → s.live pid = some row → row.startedAt = some stamp →
    stamp ≠ old → s'.live pid = some row
  revival : ∀ k pid expected status nowMs, e = .advance k →
    s.ops[k]? = some (.setStatus pid expected status nowMs) → s.live pid = none →
    s'.live pid = none

/-- Rows are in the files of their pids, and what was read passed the guard. -/
structure Ok (s : Rows α) : Prop where
  pids : ∀ pid row, s.live pid = some row → row.pid = some pid
  seen : ∀ k op pid expected read, s.ops[k]? = some op → op.guarded = some (pid, expected) →
    (s.phase k).seen = some read →
    ∀ entry ∈ read, entry.pid = some pid ∧ conflict entry.startedAt expected = none

variable {s s' : Rows α} {k : Nat}

theorem setPhase_phase (s : Rows α) (k : Nat) (phase : RowPhase α) (j : Nat) :
    (s.setPhase k phase).phase j = if j = k then phase else s.phase j :=
  Function.update_apply ..

theorem Ok.setPhase (h : s.Ok) {phase : RowPhase α}
    (hseen : ∀ op pid expected read, s.ops[k]? = some op → op.guarded = some (pid, expected) →
      phase.seen = some read →
      ∀ entry ∈ read, entry.pid = some pid ∧ conflict entry.startedAt expected = none) :
    (s.setPhase k phase).Ok where
  pids := h.pids
  seen j op pid expected read hop hguarded hj := by
    rw [setPhase_phase] at hj
    split_ifs at hj with hjk
    · subst hjk
      exact hseen op pid expected read hop hguarded hj
    · exact h.seen j op pid expected read hop hguarded hj

theorem Ok.setPhase_blind (h : s.Ok) {phase : RowPhase α} (hphase : phase.seen = none) :
    (s.setPhase k phase).Ok := by
  refine h.setPhase fun op pid expected read _ _ hread => ?_
  rw [hphase] at hread
  cases hread

theorem Ok.renameInto (h : s.Ok) {pid : Int} {entry : Entry α} (hpid : entry.pid = some pid) :
    (s.renameInto pid entry).Ok := by
  refine ⟨fun pid' row hrow => ?_, h.seen⟩
  by_cases hpid' : pid' = pid
  · subst hpid'
    obtain rfl : entry = row := by simpa [Rows.renameInto] using hrow
    exact hpid
  · exact h.pids pid' row (by simpa [Rows.renameInto, hpid'] using hrow)

theorem Ok.renameAside (h : s.Ok) (pid : Int) (row : Entry α) : (s.renameAside pid row).Ok := by
  refine ⟨fun pid' row' hrow => ?_, h.seen⟩
  by_cases hpid' : pid' = pid
  · subst hpid'
    simp [Rows.renameAside] at hrow
  · exact h.pids pid' row' (by simpa [Rows.renameAside, hpid'] using hrow)

theorem Ok.writeEntry (h : s.Ok) (entry : Entry α) : (s.writeEntry k entry).Ok := by
  unfold Rows.writeEntry
  split
  next pid hpid => exact (h.renameInto hpid).setPhase_blind rfl
  next => exact h.setPhase_blind rfl

theorem Ok.readStatus (h : s.Ok) {pid : Int} {expected : Option Int} {status : String} {nowMs : Int}
    (hop : s.ops[k]? = some (.setStatus pid expected status nowMs)) :
    (s.readStatus k pid expected).Ok := by
  unfold Rows.readStatus
  split
  next => exact h.setPhase_blind rfl
  next entry hentry =>
    split
    next => exact h.setPhase_blind rfl
    next hnone =>
      refine h.setPhase ?_
      rintro op pid' expected' read hop' hguarded ⟨⟩ entry' ⟨⟩
      cases hop.symm.trans hop'
      cases hguarded
      exact ⟨h.pids pid entry hentry, hnone⟩

theorem Ok.readGuarded (h : s.Ok) {op : Op α} {pid : Int} {expected : Option Int}
    (hop : s.ops[k]? = some op) (hguarded : op.guarded = some (pid, expected)) :
    (s.readGuarded k pid expected).Ok := by
  unfold Rows.readGuarded
  split
  next => exact h.setPhase_blind rfl
  next hnone =>
    refine h.setPhase ?_
    rintro op' pid' expected' read hop' hguarded' ⟨⟩ entry hentry
    cases hop.symm.trans hop'
    cases hguarded.symm.trans hguarded'
    rw [hentry] at hnone
    exact ⟨h.pids pid entry hentry, hnone⟩

theorem Ok.renameGuarded (h : s.Ok) (pid : Int) (captured : Option (Entry α)) :
    (s.renameGuarded k pid captured).Ok := by
  unfold Rows.renameGuarded
  split
  next row _ => exact (h.renameAside pid row).setPhase_blind rfl
  next => exact h.setPhase_blind rfl
  next => exact h.setPhase_blind rfl

theorem Ok.advance? (h : s.Ok) {op : Op α} (hop : s.ops[k]? = some op)
    (hstep : s.advance? k op = some s') : s'.Ok := by
  cases op <;> unfold Rows.advance? at hstep <;> dsimp only at hstep
  case writeEntry entry =>
    split at hstep <;> cases hstep
    exact h.writeEntry entry
  case setStatus pid expected status nowMs =>
    split at hstep <;> cases hstep
    · exact h.readStatus hop
    · exact h.writeEntry _
  case tombstone pid =>
    split at hstep <;> cases hstep
    exact h.renameGuarded pid none
  case tombstoneGuarded pid expected =>
    split at hstep <;> cases hstep
    · exact h.readGuarded hop rfl
    · exact h.renameGuarded pid none
  case ensureTombstoneGuarded pid captured expected =>
    split at hstep
    · split at hstep <;> cases hstep <;> exact h.setPhase_blind rfl
    · cases hstep
      exact h.readGuarded hop rfl
    · cases hstep
      exact h.renameGuarded pid captured
    next captured' _ =>
      cases hstep
      have htomb : ({ s with
          tombstoned := Function.update s.tombstoned pid (some captured') } : Rows α).Ok :=
        ⟨h.pids, h.seen⟩
      exact htomb.setPhase_blind rfl
    · cases hstep

theorem Ok.call (h : s.Ok) (op : Op α) :
    ({ s with ops := s.ops ++ [op] }.setPhase s.ops.length .starting).Ok := by
  refine ⟨h.pids, fun j op' pid expected read hop hguarded hj => ?_⟩
  rw [setPhase_phase] at hj
  split_ifs at hj with hjk
  · cases hj
  · exact h.seen j op' pid expected read (getElem?_of_snoc hop hjk) hguarded hj

theorem Ok.step? {e : Step α} (h : s.Ok) (hstep : s.step? e = some s') : s'.Ok := by
  cases e with
  | call op =>
      cases hstep
      exact h.call op
  | advance k =>
      obtain ⟨op, hop, hstep⟩ := Option.bind_eq_some_iff.mp hstep
      exact h.advance? hop hstep

theorem live_readStatus (s : Rows α) (k : Nat) (pid : Int) (expected : Option Int) :
    (s.readStatus k pid expected).live = s.live := by
  unfold readStatus
  split
  · rfl
  · split <;> rfl

theorem live_readGuarded (s : Rows α) (k : Nat) (pid : Int) (expected : Option Int) :
    (s.readGuarded k pid expected).live = s.live := by
  unfold readGuarded
  split <;> rfl

theorem live_renameGuarded {pid : Int} (hnone : s.live pid = none) (captured : Option (Entry α)) :
    (s.renameGuarded k pid captured).live = s.live := by
  unfold renameGuarded
  rw [hnone]
  cases captured <;> rfl

theorem live_advance [DecidableEq α] (h : s.Ok) {op : Op α} (hop : s.ops[k]? = some op) {pid : Int}
    {expected : Option Int} (hguarded : op.guarded = some (pid, expected))
    (hunraced : s.unraced (.advance k) = true) (hstep : s.advance? k op = some s') :
    s'.live = s.live ∨
      ∃ row, s.live pid = some row ∧ conflict row.startedAt expected = none := by
  have hread : ∀ {read}, (s.phase k).seen = some read → s.live pid = read := by
    intro read hread
    simpa [unraced, hop, hguarded, hread] using hunraced
  have hrow : ∀ {row}, (s.phase k).seen = some (some row) →
      ∃ row, s.live pid = some row ∧ conflict row.startedAt expected = none := by
    intro row hseen
    exact ⟨row, hread hseen, (h.seen k op pid expected (some row) hop hguarded hseen row rfl).2⟩
  have hrename : ∀ {read captured}, s.phase k = .tombstoning read →
      (s.renameGuarded k pid captured).live = s.live ∨
        ∃ row, s.live pid = some row ∧ conflict row.startedAt expected = none := by
    intro read captured hphase
    cases read with
    | none => exact .inl (live_renameGuarded (hread (by rw [hphase]; rfl)) captured)
    | some row => exact .inr (hrow (by rw [hphase]; rfl))
  cases op <;> unfold advance? at hstep <;> dsimp only at hstep
  case writeEntry => cases hguarded
  case tombstone => cases hguarded
  case setStatus =>
    cases hguarded
    split at hstep
    next => cases hstep; exact .inl (s.live_readStatus k pid expected)
    next read hphase => exact .inr (hrow (by rw [hphase]; rfl))
    next => cases hstep
  case tombstoneGuarded =>
    cases hguarded
    split at hstep
    next => cases hstep; exact .inl (s.live_readGuarded k pid expected)
    next read hphase => cases hstep; exact hrename hphase
    next => cases hstep
  case ensureTombstoneGuarded captured =>
    cases hguarded
    split at hstep
    next => split at hstep <;> cases hstep <;> exact .inl rfl
    next => cases hstep; exact .inl (s.live_readGuarded k pid expected)
    next read hphase => cases hstep; exact hrename hphase
    next => cases hstep; exact .inl rfl
    next => cases hstep

theorem Ok.fenced [DecidableEq α] {e : Step α} (h : s.Ok) (hunraced : s.unraced e = true)
    (hstep : s.step? e = some s') : s.Fenced e s' := by
  refine ⟨?_, ?_⟩
  · rintro k op pid old row stamp rfl hop hguarded hlive hstamp hne
    obtain ⟨op', hop', hstep⟩ := Option.bind_eq_some_iff.mp hstep
    cases hop.symm.trans hop'
    obtain hsame | ⟨row', hlive', hpassed⟩ := live_advance h hop hguarded hunraced hstep
    · rw [hsame, hlive]
    · cases hlive.symm.trans hlive'
      simp [conflict, hstamp, hne] at hpassed
  · rintro k pid expected status nowMs rfl hop hlive
    obtain ⟨op', hop', hstep⟩ := Option.bind_eq_some_iff.mp hstep
    cases hop.symm.trans hop'
    obtain hsame | ⟨row', hlive', -⟩ := live_advance h hop rfl hunraced hstep
    · rw [hsame, hlive]
    · cases hlive.symm.trans hlive'

theorem ok_new : ({} : Rows α).Ok := by
  refine ⟨?_, ?_⟩
  · rintro pid row ⟨⟩
  · rintro k op pid expected read hop
    simp at hop

/-- In a run in which guarded operations rename the rows that they have read, every step
respects the fence. -/
theorem fenced_of_unraced [DecidableEq α] {steps : List (Step α)} {e : Step α} {s s' : Rows α}
    (hunraced : Meets step? unraced {} (steps ++ [e]) = true) (hrun : run? {} steps = some s)
    (hstep : s.step? e = some s') : s.Fenced e s' := by
  obtain ⟨hmeets, hlast⟩ := Meets.of_snoc hunraced hrun
  have h : s.Ok := Meets.invariant (fun h _ hstep => h.step? hstep) ok_new hmeets hrun
  exact h.fenced hlast hstep

def incarnation (startedAt : Int) : Entry Unit :=
  { pid := some 7, startedAt := some startedAt, updatedAt := none, status := none, rest := () }

/-- An old incarnation, and a new one that takes the row over before the old one is heard
of again. -/
def takeover : List (Step Unit) :=
  [.call (.writeEntry (incarnation 1)), .advance 0, .call (.writeEntry (incarnation 2)), .advance 1,
    .call (.setStatus 7 (some 1) "offline" 5)]

theorem fenced_takeover : ∃ s s', run? {} takeover = some s ∧ s.step? (.advance 2) = some s' ∧
    s.Fenced (.advance 2) s' := by
  obtain ⟨s, hrun⟩ : ∃ s, run? {} takeover = some s := ⟨_, rfl⟩
  obtain ⟨s', hstep⟩ : ∃ s', s.step? (.advance 2) = some s' := by
    cases hrun
    exact ⟨_, rfl⟩
  exact ⟨s, s', hrun, hstep, fenced_of_unraced (by decide) hrun hstep⟩

/-- What a call does that has read the row of the old incarnation before the new one took it
over, or before it was tombstoned. -/
def afterRead (op : Op Unit) (between : Op Unit) : List (Step Unit) :=
  [.call (.writeEntry (incarnation 1)), .advance 0, .call op, .advance 1, .call between, .advance 2]

/-- The new row is overwritten, or removed, and the tombstoned one is brought back. -/
theorem renameAfterRead_not_fenced :
    (∃ s s', run? {} (afterRead (.setStatus 7 (some 1) "idle" 5) (.writeEntry (incarnation 2))) = some s ∧
      s.live 7 = some (incarnation 2) ∧ s.step? (.advance 1) = some s' ∧
      s'.live 7 = some { incarnation 1 with status := some "idle", updatedAt := some 5 }) ∧
    (∃ s s', run? {} (afterRead (.tombstoneGuarded 7 (some 1)) (.writeEntry (incarnation 2))) = some s ∧
      s.live 7 = some (incarnation 2) ∧ s.step? (.advance 1) = some s' ∧ s'.live 7 = none) ∧
    ∃ s s', run? {} (afterRead (.setStatus 7 (some 1) "idle" 5) (.tombstone 7)) = some s ∧
      s.live 7 = none ∧ s.step? (.advance 1) = some s' ∧ s'.live 7 ≠ none := by
  refine ⟨⟨_, _, rfl, rfl, rfl, rfl⟩, ⟨_, _, rfl, rfl, rfl, rfl⟩, ⟨_, _, rfl, rfl, rfl, ?_⟩⟩
  exact Option.some_ne_none _

end Rows

end QuorumDispatch.Registry
