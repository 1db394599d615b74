import QuorumDispatch.Recovery.Coordinator
import QuorumDispatch.Lib.Runs

/-!
Passes of several coordinators over the same rows.

A pass reads a row, decides, and writes the row back, and other passes may come
in between. The lease in the row is what should keep them apart. But a pass that
finds a row unowned, or its lease expired, acts on it without putting its own
lease there, so the row stays as free for the next coordinator as it was. Here
the passes run by single effects. Each coordinator is one process, named by its
incarnation.
-/

namespace QuorumDispatch.Recovery.Lease

open Lib

def leaseFree (row : RecoveryRow) (nowMs : Int) : Bool :=
  match row.ladderOwner with
  | some o => o.isExpired nowMs
  | none => true

/-- When the lease ends under which a coordinator that may acquire the row acts on
it: its live lease, or the fresh one that taking a free row stands for. -/
def leaseUntil (graceMs : Int) (row : RecoveryRow) (incarnation : Nat) (nowMs : Int) : Int :=
  match row.ladderOwner with
  | some o =>
      if o.isExpired nowMs then (LadderOwner.fresh incarnation nowMs graceMs).expiryMs
      else o.expiryMs
  | none => (LadderOwner.fresh incarnation nowMs graceMs).expiryMs

/-- A coordinator that may acquire the row resumes it, clears it or marks it. -/
def actionable (row : RecoveryRow) : Bool :=
  if critConsecutiveFailures ≤ row.consecutiveFailures then row.ladderState != .crit
  else resumeAction row false != .cold

/-! ### The passes -/

/-- What a pass is about to do; past the read it holds its own copy of the row. -/
inductive PassPc where
  | next
  | probe (sessionId : String) (row : RecoveryRow)
  | logCrit (sessionId : String) (row : RecoveryRow)
  | writeCrit (sessionId : String) (row : RecoveryRow)
  | writeClear (sessionId : String) (row : RecoveryRow)
deriving DecidableEq, Repr

structure Pass where
  nowMs : Int
  todo : List String
  pc : PassPc := .next
deriving DecidableEq, Repr

/-- A coordinator resumed, cleared or marked a row, under a lease until `untilMs`. -/
structure Act where
  incarnation : Nat
  sessionId : String
  nowMs : Int
  untilMs : Int
deriving DecidableEq, Repr

/-- A coordinator read a row that it will act on, and found it free. -/
structure Taking where
  incarnation : Nat
  sessionId : String
  nowMs : Int
deriving DecidableEq, Repr

/-- The rows and the running passes by incarnation. The acts, the `recovery-crit`
events and the takings of free rows are kept as history. -/
structure Fleet where
  rows : Rows := fun _ => none
  passes : Nat → Option Pass := fun _ => none
  acts : List Act := []
  critLog : List String := []
  takings : List Taking := []

namespace Fleet

def setPass (s : Fleet) (incarnation : Nat) (p : Option Pass) : Fleet :=
  { s with passes := Function.update s.passes incarnation p }

def act (s : Fleet) (a : Act) : Fleet := { s with acts := s.acts ++ [a] }

def write (s : Fleet) (row : RecoveryRow) (ok : Bool) : Fleet :=
  { s with rows := writeRecoveryRow s.rows row ok }

def take (s : Fleet) (incarnation : Nat) (sessionId : String) (nowMs : Int)
    (row : RecoveryRow) : Fleet :=
  if leaseFree row nowMs && actionable row then
    { s with takings := s.takings ++ [{ incarnation, sessionId, nowMs }] }
  else s

end Fleet

/-- What the file system answers at a step: the lock files, and whether a row write
goes through. -/
structure PassAnswer where
  locks : String → LockFile := fun _ => .absent
  writeOk : String → Bool := fun _ => true

section

variable (graceMs : Int)

def passStep (s : Fleet) (inc : Nat) (p : Pass) (a : PassAnswer) : Fleet :=
  match p.pc with
  | .next =>
      match p.todo with
      | [] => s.setPass inc none
      | sid :: todo =>
          match readRecoveryRow s.rows sid with
          | none => s.setPass inc (some { p with todo })
          | some row =>
              if !canAcquireLease row.ladderOwner inc p.nowMs then
                s.setPass inc (some { p with todo })
              else
                let s := s.take inc sid p.nowMs row
                if critConsecutiveFailures ≤ row.consecutiveFailures then
                  if row.ladderState ≠ .crit then
                    s.setPass inc (some { p with todo, pc := .logCrit sid row })
                  else s.setPass inc (some { p with todo })
                else s.setPass inc (some { p with todo, pc := .probe sid row })
  | .probe sid row =>
      match resumeAction row (successorHealthy a.locks row) with
      | .successorHealthy => s.setPass inc (some { p with pc := .writeClear sid row })
      | .reArm _ | .reverifySuccessor _ | .resumeKill _ =>
          (s.act ⟨inc, sid, p.nowMs, leaseUntil graceMs row inc p.nowMs⟩).setPass inc
            (some { p with pc := .next })
      | .cold => s.setPass inc (some { p with pc := .next })
  | .logCrit sid row =>
      { s with critLog := s.critLog ++ [sid] }.setPass inc
        (some { p with pc := .writeCrit sid row })
  | .writeCrit sid row =>
      ((s.act ⟨inc, sid, p.nowMs, leaseUntil graceMs row inc p.nowMs⟩).write
        { row with ladderState := .crit } (a.writeOk sid)).setPass inc
          (some { p with pc := .next })
  | .writeClear sid row =>
      ((s.act ⟨inc, sid, p.nowMs, leaseUntil graceMs row inc p.nowMs⟩).write
        row.cleared (a.writeOk sid)).setPass inc (some { p with pc := .next })

inductive Event where
  /-- A coordinator begins a pass at its clock over the row files that it lists. -/
  | begin (incarnation : Nat) (nowMs : Int) (sessions : List String)
  | step (incarnation : Nat) (answer : PassAnswer)
  /-- The coordinator dies. -/
  | crash (incarnation : Nat)

def step (s : Fleet) : Event → Fleet
  | .begin inc nowMs sessions =>
      match s.passes inc with
      | none => s.setPass inc (some { nowMs, todo := sessions })
      | some _ => s
  | .step inc a =>
      match s.passes inc with
      | some p => passStep graceMs s inc p a
      | none => s
  | .crash inc => s.setPass inc none

end

/-! ### What is claimed of a fleet, and under which condition -/

/-- Two coordinators act on a row only when the lease of the first is over, and no
row's transition into `Crit` is logged twice. A pass takes no row out of `Crit`,
so a row has one such transition at most. -/
structure Exclusive (s : Fleet) : Prop where
  apart : s.acts.Pairwise fun a b =>
    a.sessionId = b.sessionId → a.incarnation ≠ b.incarnation → a.untilMs ≤ b.nowMs
  critOnce : s.critLog.Nodup

instance (s : Fleet) : Decidable (Exclusive s) :=
  decidable_of_iff ((s.acts.Pairwise fun a b =>
      a.sessionId = b.sessionId → a.incarnation ≠ b.incarnation → a.untilMs ≤ b.nowMs) ∧
      s.critLog.Nodup)
    ⟨fun h => ⟨h.1, h.2⟩, fun h => ⟨h.apart, h.critOnce⟩⟩

namespace Pass

/-- The row that the next step of a pass reads, may acquire and will act on. -/
def acquiring (p : Pass) (rows : Rows) (incarnation : Nat) : Option (String × RecoveryRow) :=
  match p.pc, p.todo with
  | .next, sid :: _ =>
      match readRecoveryRow rows sid with
      | some row =>
          if canAcquireLease row.ladderOwner incarnation p.nowMs && actionable row then
            some (sid, row)
          else none
      | none => none
  | _, _ => none

def busyOn (p : Pass) : Option (String × RecoveryRow) :=
  match p.pc with
  | .next => none
  | .probe sid row => if actionable row then some (sid, row) else none
  | .logCrit sid row | .writeCrit sid row | .writeClear sid row => some (sid, row)

end Pass

/-- The condition on a step. When a coordinator reads a row that it may acquire and
will act on, no other is between its own reading of the row and its act, and the
fresh lease of any other that found the row free is over. The row of a logged
`recovery-crit` is written. -/
def CleanEvent (graceMs : Int) (s : Fleet) : Event → Prop
  | .begin .. => True
  | .step inc a => ∀ p ∈ s.passes inc,
      (∀ b ∈ p.acquiring s.rows inc,
        (∀ inc' p', inc' ≠ inc → s.passes inc' = some p' → ∀ b' ∈ p'.busyOn, b'.1 ≠ b.1) ∧
        ∀ t ∈ s.takings, t.sessionId = b.1 → t.incarnation ≠ inc →
          (LadderOwner.fresh t.incarnation t.nowMs graceMs).expiryMs ≤ p.nowMs) ∧
      ∀ sid row, p.pc = .writeCrit sid row → a.writeOk sid = true
  | .crash inc => ∀ p ∈ s.passes inc, ∀ sid row, p.pc ≠ .writeCrit sid row

/-! ### The invariant -/

theorem canAcquireLease_of_live {row : RecoveryRow} {inc : Nat} {now : Int}
    (h : canAcquireLease row.ladderOwner inc now = true) (hlive : leaseFree row now = false) :
    ∃ o, row.ladderOwner = some o ∧ o.coordinatorIncarnation = inc ∧ now < o.expiryMs := by
  unfold leaseFree at hlive
  unfold canAcquireLease at h
  cases howner : row.ladderOwner with
  | none => simp [howner] at hlive
  | some o =>
      simp only [howner] at h hlive
      refine ⟨o, rfl, by simpa [hlive] using h, ?_⟩
      simpa [LadderOwner.isExpired] using hlive

theorem leaseUntil_of_free {graceMs : Int} {row : RecoveryRow} {inc : Nat} {now : Int}
    (h : leaseFree row now = true) :
    leaseUntil graceMs row inc now = (LadderOwner.fresh inc now graceMs).expiryMs := by
  unfold leaseFree at h
  unfold leaseUntil
  split at h <;> simp_all

theorem leaseUntil_le {graceMs : Int} {row : RecoveryRow} {inc inc' : Nat} {now now' : Int}
    (hacq : canAcquireLease row.ladderOwner inc now = true) (hlive : leaseFree row now = false)
    (hacq' : canAcquireLease row.ladderOwner inc' now' = true) (hne : inc ≠ inc') :
    leaseUntil graceMs row inc now ≤ now' := by
  obtain ⟨o, howner, rfl, hnow⟩ := canAcquireLease_of_live hacq hlive
  have hexp : o.isExpired now = false := by simpa [LadderOwner.isExpired] using hnow
  have huntil : leaseUntil graceMs row o.coordinatorIncarnation now = o.expiryMs := by
    simp [leaseUntil, howner, hexp]
  rw [huntil]
  simpa [canAcquireLease, howner, LadderOwner.isExpired, hne] using hacq'

theorem actionable_crit (row : RecoveryRow)
    (h : critConsecutiveFailures ≤ row.consecutiveFailures) :
    actionable { row with ladderState := .crit } = false := by
  simp [actionable, h]

theorem actionable_cleared (row : RecoveryRow)
    (h : row.consecutiveFailures < critConsecutiveFailures) : actionable row.cleared = false := by
  simp [actionable, RecoveryRow.cleared, resumeAction, Nat.not_le.mpr h]

def Inert (rows : Rows) (sid : String) : Prop := ∃ row, rows sid = some row ∧ actionable row = false

/-- A pass marks the rows with too many failures and resumes the others. -/
def Pass.Sorted (p : Pass) : Prop :=
  match p.pc with
  | .next => True
  | .probe _ row | .writeClear _ row => row.consecutiveFailures < critConsecutiveFailures
  | .logCrit _ row | .writeCrit _ row => critConsecutiveFailures ≤ row.consecutiveFailures

structure Busy (rows₀ : Rows) (s : Fleet) (inc : Nat) (now : Int) (sid : String)
    (row : RecoveryRow) : Prop where
  found : rows₀ sid = some row
  acts : actionable row = true
  acquired : canAcquireLease row.ladderOwner inc now = true
  after : ∀ a ∈ s.acts, a.sessionId = sid → a.incarnation ≠ inc → a.untilMs ≤ now
  taken : leaseFree row now = true → ⟨inc, sid, now⟩ ∈ s.takings

/-- The rows are those at the start until a pass writes one that nobody acts on, and
at most one coordinator is at work on a row. -/
structure Working (graceMs : Int) (rows₀ : Rows) (s : Fleet) : Prop where
  rows : ∀ sid, s.rows sid = rows₀ sid ∨ Inert s.rows sid
  busy : ∀ inc p, s.passes inc = some p → ∀ sid row, p.busyOn = some (sid, row) →
    Busy rows₀ s inc p.nowMs sid row
  sorted : ∀ inc p, s.passes inc = some p → p.Sorted
  unique : ∀ inc inc' p p' b b', s.passes inc = some p → s.passes inc' = some p' →
    p.busyOn = some b → p'.busyOn = some b' → b.1 = b'.1 → inc = inc'
  acted : ∀ a ∈ s.acts, ∃ row, rows₀ a.sessionId = some row ∧
    a.untilMs = leaseUntil graceMs row a.incarnation a.nowMs ∧
    canAcquireLease row.ladderOwner a.incarnation a.nowMs = true ∧
    (leaseFree row a.nowMs = true → ⟨a.incarnation, a.sessionId, a.nowMs⟩ ∈ s.takings)
  apart : s.acts.Pairwise fun a b =>
    a.sessionId = b.sessionId → a.incarnation ≠ b.incarnation → a.untilMs ≤ b.nowMs

/-- A logged `recovery-crit` has its row written, or its coordinator is about to. -/
structure Logging (s : Fleet) : Prop where
  critOnce : s.critLog.Nodup
  logged : ∀ sid ∈ s.critLog, Inert s.rows sid ∨
    ∃ inc p row, s.passes inc = some p ∧ p.pc = .writeCrit sid row
  unlogged : ∀ inc p sid row, s.passes inc = some p → p.pc = .logCrit sid row →
    sid ∉ s.critLog

structure Inv (graceMs : Int) (rows₀ : Rows) (s : Fleet) : Prop extends
  Working graceMs rows₀ s, Logging s

section

variable {graceMs : Int} {rows₀ : Rows} {s : Fleet} {inc : Nat}

@[simp] theorem passes_setPass (s : Fleet) (inc i : Nat) (p : Option Pass) :
    (s.setPass inc p).passes i = if i = inc then p else s.passes i := by
  simp [Fleet.setPass, Function.update_apply]

@[simp] theorem rows_setPass (s : Fleet) (inc : Nat) (p : Option Pass) :
    (s.setPass inc p).rows = s.rows := rfl

@[simp] theorem acts_setPass (s : Fleet) (inc : Nat) (p : Option Pass) :
    (s.setPass inc p).acts = s.acts := rfl

@[simp] theorem critLog_setPass (s : Fleet) (inc : Nat) (p : Option Pass) :
    (s.setPass inc p).critLog = s.critLog := rfl

theorem Inert.of_rows {rows rows' : Rows} {sid : String} (h : Inert rows sid)
    (hrows : rows' sid = rows sid ∨ Inert rows' sid) : Inert rows' sid := by
  obtain heq | h' := hrows
  · obtain ⟨row, hrow, hact⟩ := h
    exact ⟨row, heq.trans hrow, hact⟩
  · exact h'

theorem inv_start (graceMs : Int) (rows : Rows) : Inv graceMs rows { rows } where
  rows sid := .inl rfl
  busy inc p hp := by simp at hp
  sorted inc p hp := by simp at hp
  unique inc inc' p p' b b' hp := by simp at hp
  acted a ha := by simp at ha
  apart := by simp
  critOnce := by simp
  logged sid hsid := by simp at hsid
  unlogged inc p sid row hp := by simp at hp

/-! ### The moves of one pass -/

theorem Working.setPass (h : Working graceMs rows₀ s) {p' : Option Pass}
    (hbusy : ∀ p ∈ p', ∀ sid row, p.busyOn = some (sid, row) →
      Busy rows₀ s inc p.nowMs sid row)
    (hsorted : ∀ p ∈ p', p.Sorted)
    (halone : ∀ p ∈ p', ∀ b ∈ p.busyOn, ∀ i q, i ≠ inc → s.passes i = some q →
      ∀ b' ∈ q.busyOn, b'.1 ≠ b.1) :
    Working graceMs rows₀ (s.setPass inc p') where
  rows := h.rows
  busy i p hp sid row hb := by
    have hkeep : Busy rows₀ s i p.nowMs sid row := by
      by_cases hi : i = inc
      · subst hi
        exact hbusy p (by simpa using hp) sid row hb
      · exact h.busy i p (by simpa [hi] using hp) sid row hb
    exact ⟨hkeep.found, hkeep.acts, hkeep.acquired, hkeep.after, hkeep.taken⟩
  sorted i p hp := by
    by_cases hi : i = inc
    · exact hsorted p (by simpa [hi] using hp)
    · exact h.sorted i p (by simpa [hi] using hp)
  unique i i' p q b b' hp hq hb hb' hsid := by
    by_cases hi : i = inc <;> by_cases hi' : i' = inc
    · rw [hi, hi']
    · simp only [passes_setPass, hi, hi', if_true, if_false] at hp hq
      exact absurd hsid.symm (halone p hp b hb i' q hi' hq b' hb')
    · simp only [passes_setPass, hi, hi', if_true, if_false] at hp hq
      exact absurd hsid (halone q hq b' hb' i p hi hp b hb)
    · simp only [passes_setPass, hi, hi', if_false] at hp hq
      exact h.unique i i' p q b b' hp hq hb hb' hsid
  acted := h.acted
  apart := h.apart

theorem Working.alone (h : Working graceMs rows₀ s) {p : Pass} {b : String × RecoveryRow}
    (hp : s.passes inc = some p) (hb : p.busyOn = some b) (i : Nat) (q : Pass) (hi : i ≠ inc)
    (hq : s.passes i = some q) (b' : String × RecoveryRow) (hb' : b' ∈ q.busyOn) : b'.1 ≠ b.1 :=
  fun hsid => hi (h.unique i inc q p b' b hq hp hb' hb hsid)

theorem Logging.setPass (h : Logging s)
    (hcrit : ∀ p ∈ s.passes inc, ∀ sid row, p.pc ≠ .writeCrit sid row) {p' : Option Pass}
    (hlog : ∀ p ∈ p', ∀ sid row, p.pc = .logCrit sid row → sid ∉ s.critLog) :
    Logging (s.setPass inc p') where
  critOnce := h.critOnce
  logged sid hsid := by
    obtain hinert | ⟨i, p, row, hp, hpc⟩ := h.logged sid hsid
    · exact .inl hinert
    · have hi : i ≠ inc := by
        rintro rfl
        exact hcrit p hp sid row hpc
      exact .inr ⟨i, p, row, by simpa [hi] using hp, hpc⟩
  unlogged i p sid row hp hpc := by
    by_cases hi : i = inc
    · exact hlog p (by simpa [hi] using hp) sid row hpc
    · exact h.unlogged i p sid row (by simpa [hi] using hp) hpc

theorem Inv.idle (h : Inv graceMs rows₀ s)
    (hcrit : ∀ p ∈ s.passes inc, ∀ sid row, p.pc ≠ .writeCrit sid row)
    {p' : Option Pass} (hidle : ∀ p ∈ p', p.busyOn = none ∧ p.Sorted) :
    Inv graceMs rows₀ (s.setPass inc p') := by
  refine ⟨h.toWorking.setPass ?_ (fun p hp => (hidle p hp).2) ?_, h.toLogging.setPass hcrit ?_⟩
  · intro p hp sid row hb
    simp [(hidle p hp).1] at hb
  · intro p hp b hb
    simp [(hidle p hp).1] at hb
  · intro p hp sid row hpc
    have hnone := (hidle p hp).1
    simp [Pass.busyOn, hpc] at hnone

@[simp] theorem rows_take (s : Fleet) (inc : Nat) (sid : String) (now : Int)
    (row : RecoveryRow) : (s.take inc sid now row).rows = s.rows := by
  unfold Fleet.take
  split <;> rfl

@[simp] theorem passes_take (s : Fleet) (inc : Nat) (sid : String) (now : Int)
    (row : RecoveryRow) : (s.take inc sid now row).passes = s.passes := by
  unfold Fleet.take
  split <;> rfl

@[simp] theorem acts_take (s : Fleet) (inc : Nat) (sid : String) (now : Int)
    (row : RecoveryRow) : (s.take inc sid now row).acts = s.acts := by
  unfold Fleet.take
  split <;> rfl

@[simp] theorem critLog_take (s : Fleet) (inc : Nat) (sid : String) (now : Int)
    (row : RecoveryRow) : (s.take inc sid now row).critLog = s.critLog := by
  unfold Fleet.take
  split <;> rfl

theorem takings_subset_take (s : Fleet) (inc : Nat) (sid : String) (now : Int)
    (row : RecoveryRow) : s.takings ⊆ (s.take inc sid now row).takings := by
  unfold Fleet.take
  split
  · exact List.subset_append_left _ _
  · exact List.Subset.refl _

theorem mem_takings_take {sid : String} {now : Int} {row : RecoveryRow}
    (hfree : leaseFree row now = true) (hact : actionable row = true) :
    ⟨inc, sid, now⟩ ∈ (s.take inc sid now row).takings := by
  simp [Fleet.take, hfree, hact]

theorem Inv.take (h : Inv graceMs rows₀ s) (inc : Nat) (sid : String) (now : Int)
    (row : RecoveryRow) :
    Inv graceMs rows₀ (s.take inc sid now row) := by
  have hsubset := takings_subset_take s inc sid now row
  unfold Fleet.take at hsubset ⊢
  split
  case isTrue hfree =>
    rw [if_pos hfree] at hsubset
    refine ⟨⟨h.rows, fun i p hp x rowx hb => ?_, h.sorted, h.unique, fun a ha => ?_, h.apart⟩,
      h.critOnce, h.logged, h.unlogged⟩
    · have hold := h.busy i p hp x rowx hb
      exact ⟨hold.found, hold.acts, hold.acquired, hold.after, fun hfree => hsubset (hold.taken hfree)⟩
    · obtain ⟨rowa, hrow, huntil, hacq, htaken⟩ := h.acted a ha
      exact ⟨rowa, hrow, huntil, hacq, fun hfree => hsubset (htaken hfree)⟩
  case isFalse => exact h

theorem Working.found (h : Working graceMs rows₀ s) {sid : String} {row : RecoveryRow}
    (hrow : s.rows sid = some row) (hact : actionable row = true) : rows₀ sid = some row := by
  obtain heq | ⟨row', hrow', hinert⟩ := h.rows sid
  · rw [← heq, hrow]
  · obtain rfl : row = row' := by simpa [hrow] using hrow'
    simp [hact] at hinert

theorem Working.acts_over (h : Working graceMs rows₀ s) {sid : String} {row : RecoveryRow}
    {now : Int} (hfound : rows₀ sid = some row)
    (hacq : canAcquireLease row.ladderOwner inc now = true)
    (htakings : ∀ t ∈ s.takings, t.sessionId = sid → t.incarnation ≠ inc →
      (LadderOwner.fresh t.incarnation t.nowMs graceMs).expiryMs ≤ now)
    (a : Act) (ha : a ∈ s.acts) (hsid : a.sessionId = sid) (hne : a.incarnation ≠ inc) :
    a.untilMs ≤ now := by
  obtain ⟨row', hrow', huntil, hacq', htaken⟩ := h.acted a ha
  obtain rfl : row = row' := by
    rw [hsid, hfound] at hrow'
    simpa using hrow'
  rw [huntil]
  cases hfree : leaseFree row a.nowMs with
  | true =>
      rw [leaseUntil_of_free hfree]
      exact htakings _ (htaken hfree) hsid hne
  | false => exact leaseUntil_le hacq' hfree hacq hne

theorem Inv.acquire (h : Inv graceMs rows₀ s) {p : Pass} (hp : s.passes inc = some p)
    (hnext : p.pc = .next) {sid : String} {row : RecoveryRow} (hrow : s.rows sid = some row)
    (hact : actionable row = true)
    (hacq : canAcquireLease row.ladderOwner inc p.nowMs = true)
    (halone : ∀ i q, i ≠ inc → s.passes i = some q → ∀ b ∈ q.busyOn, b.1 ≠ sid)
    (htakings : ∀ t ∈ s.takings, t.sessionId = sid → t.incarnation ≠ inc →
      (LadderOwner.fresh t.incarnation t.nowMs graceMs).expiryMs ≤ p.nowMs)
    {p' : Pass} (hnow : p'.nowMs = p.nowMs) (hb : p'.busyOn = some (sid, row))
    (hsorted : p'.Sorted) :
    Inv graceMs rows₀ ((s.take inc sid p.nowMs row).setPass inc (some p')) := by
  have hfound := h.found hrow hact
  have hs := h.take inc sid p.nowMs row
  refine ⟨hs.toWorking.setPass ?_ (by simpa using hsorted) ?_, hs.toLogging.setPass ?_ ?_⟩
  · rintro q ⟨⟩ x rowx hq
    obtain ⟨rfl, rfl⟩ : sid = x ∧ row = rowx := by simpa [hb] using hq
    rw [hnow]
    refine ⟨hfound, hact, hacq, ?_, fun hfree => mem_takings_take hfree hact⟩
    intro a ha
    exact h.acts_over hfound hacq htakings a (by simpa using ha)
  · rintro q ⟨⟩ b hq i r hi hr
    obtain rfl : (sid, row) = b := by simpa [hb] using hq
    exact halone i r hi (by simpa using hr)
  · intro q hq
    obtain rfl : p = q := by simpa [hp] using hq
    simp [hnext]
  · rintro q ⟨⟩ x rowx hpc
    obtain ⟨rfl, rfl⟩ : x = sid ∧ rowx = row := by simpa [Pass.busyOn, hpc] using hb
    -- a logged row would be past acting on, or another pass about to write it
    intro hx
    obtain ⟨row', hrow', hinert⟩ | ⟨i, q, row', hq, hqpc⟩ :=
      h.logged x (by simpa using hx)
    · obtain rfl : rowx = row' := by simpa [hrow] using hrow'
      simp [hact] at hinert
    · by_cases hi : i = inc
      · subst hi
        obtain rfl : p = q := by simpa [hp] using hq
        simp [hnext] at hqpc
      · exact halone i q hi hq (x, row') (by simp [Pass.busyOn, hqpc]) rfl

theorem Working.advance (h : Working graceMs rows₀ s) {p p' : Pass}
    (hp : s.passes inc = some p) {b : String × RecoveryRow} (hb : p.busyOn = some b)
    (hnow : p'.nowMs = p.nowMs) (hb' : p'.busyOn = some b) (hsorted : p'.Sorted) :
    Working graceMs rows₀ (s.setPass inc (some p')) := by
  refine h.setPass ?_ (by simpa using hsorted) ?_
  · rintro q ⟨⟩ sid row hq
    rw [hnow]
    exact h.busy inc p hp sid row (by rw [hb, ← hb', hq])
  · rintro q ⟨⟩ c hq i r hi hr
    obtain rfl : b = c := by simpa [hb'] using hq
    exact h.alone hp hb i r hi hr

theorem Inv.logCrit (h : Inv graceMs rows₀ s) {p : Pass} (hp : s.passes inc = some p)
    {sid : String} {row : RecoveryRow} (hpc : p.pc = .logCrit sid row) :
    Inv graceMs rows₀ ({ s with critLog := s.critLog ++ [sid] }.setPass inc
      (some { p with pc := .writeCrit sid row })) := by
  have hb : p.busyOn = some (sid, row) := by simp [Pass.busyOn, hpc]
  have hsorted : critConsecutiveFailures ≤ row.consecutiveFailures := by
    simpa [Pass.Sorted, hpc] using h.sorted inc p hp
  have hw : Working graceMs rows₀ (s.setPass inc (some { p with pc := .writeCrit sid row })) :=
    h.toWorking.advance hp hb rfl (by simp [Pass.busyOn]) hsorted
  refine ⟨⟨hw.rows, ?_, hw.sorted, hw.unique, hw.acted, hw.apart⟩, ?_, ?_, ?_⟩
  · intro i q hq x rowx hqb
    have hold := hw.busy i q hq x rowx hqb
    exact ⟨hold.found, hold.acts, hold.acquired, hold.after, hold.taken⟩
  · have hnew : sid ∉ s.critLog := h.unlogged inc p sid row hp hpc
    exact List.nodup_append.mpr ⟨h.critOnce, by simp, by simpa using fun x hx => by grind⟩
  · intro x hx
    obtain hx | rfl : x ∈ s.critLog ∨ x = sid := by simpa using hx
    · obtain hinert | ⟨i, q, rowx, hq, hqpc⟩ := h.logged x hx
      · exact .inl hinert
      · have hi : i ≠ inc := by
          rintro rfl
          obtain rfl : p = q := by simpa [hp] using hq
          simp [hpc] at hqpc
        exact .inr ⟨i, q, rowx, by simpa [hi] using hq, hqpc⟩
    · exact .inr ⟨inc, { p with pc := .writeCrit x row }, row, by simp, rfl⟩
  · intro i q x rowx hq hqpc hx
    by_cases hi : i = inc
    · obtain rfl := by simpa [hi] using hq
      simp at hqpc
    · have hq' : s.passes i = some q := by simpa [hi] using hq
      obtain hx | rfl : x ∈ s.critLog ∨ x = sid := by simpa using hx
      · exact h.unlogged i q x rowx hq' hqpc hx
      · exact h.alone hp hb i q hi hq' (x, rowx) (by simp [Pass.busyOn, hqpc]) rfl

theorem Inv.act (h : Inv graceMs rows₀ s) {p : Pass} {sid : String} {row : RecoveryRow}
    (hp : s.passes inc = some p) (hb : p.busyOn = some (sid, row)) {rows' : Rows}
    (hrows : ∀ x, rows' x = s.rows x ∨ Inert rows' x)
    (hcrit : ∀ x row', p.pc = .writeCrit x row' → Inert rows' x) :
    Inv graceMs rows₀ ({ (s.act ⟨inc, sid, p.nowMs, leaseUntil graceMs row inc p.nowMs⟩) with
      rows := rows' }.setPass inc (some { p with pc := .next })) := by
  have hbusy := h.busy inc p hp sid row hb
  have hw : Working graceMs rows₀ (s.setPass inc (some { p with pc := .next })) :=
    h.toWorking.setPass (by simp [Pass.busyOn]) (by simp [Pass.Sorted]) (by simp [Pass.busyOn])
  refine ⟨⟨?_, ?_, hw.sorted, hw.unique, ?_, ?_⟩, h.critOnce, ?_, ?_⟩
  · intro x
    obtain heq | hinert := h.rows x
    · obtain heq' | hinert' := hrows x
      · exact .inl (heq'.trans heq)
      · exact .inr hinert'
    · exact .inr (hinert.of_rows (hrows x))
  · intro i q hq x rowx hqb
    have hother := hw.busy i q hq x rowx hqb
    refine ⟨hother.found, hother.acts, hother.acquired, ?_, hother.taken⟩
    -- the new act is on a row that no other coordinator is at work on
    intro a ha hsid hne
    obtain ha | rfl : a ∈ s.acts ∨ a = _ := by simpa [Fleet.act] using ha
    · exact hother.after a ha hsid hne
    · have hi : i ≠ inc := fun hi => hne hi.symm
      have hq' : s.passes i = some q := by simpa [hi, Fleet.act] using hq
      exact absurd hsid.symm (h.alone hp hb i q hi hq' _ hqb)
  · intro a ha
    obtain ha | rfl : a ∈ s.acts ∨ a = _ := by simpa [Fleet.act] using ha
    · exact h.acted a ha
    · exact ⟨row, hbusy.found, rfl, hbusy.acquired, hbusy.taken⟩
  · refine List.pairwise_append.mpr ⟨h.apart, by simp, ?_⟩
    intro a ha b hb' hsid hne
    obtain rfl : b = _ := by simpa using hb'
    exact hbusy.after a ha hsid hne
  · intro x hx
    obtain hinert | ⟨i, q, rowx, hq, hpc⟩ := h.logged x hx
    · exact .inl (hinert.of_rows (hrows x))
    · by_cases hi : i = inc
      · subst hi
        obtain rfl : p = q := by simpa [hp] using hq
        exact .inl (hcrit x rowx hpc)
      · exact .inr ⟨i, q, rowx, by simpa [hi, Fleet.act] using hq, hpc⟩
  · intro i q x rowx hq hpc
    by_cases hi : i = inc
    · obtain rfl := by simpa [hi] using hq
      simp at hpc
    · exact h.unlogged i q x rowx (by simpa [hi, Fleet.act] using hq) hpc

theorem rows_or_inert {rows : Rows} {row : RecoveryRow} (hinert : actionable row = false)
    (ok : Bool) (x : String) :
    writeRecoveryRow rows row ok x = rows x ∨ Inert (writeRecoveryRow rows row ok) x := by
  cases ok with
  | false => exact .inl rfl
  | true =>
      by_cases hx : x = row.sessionId
      · subst hx
        exact .inr ⟨row, by simp, hinert⟩
      · exact .inl (by simp [writeRecoveryRow, Function.update_of_ne hx])

theorem actionable_of_critDue {row : RecoveryRow}
    (hfail : critConsecutiveFailures ≤ row.consecutiveFailures) (hstate : row.ladderState ≠ .crit) :
    actionable row = true := by
  simp [actionable, hfail, hstate]

theorem actionable_eq_resumes {row : RecoveryRow}
    (hfail : row.consecutiveFailures < critConsecutiveFailures) (healthy : Bool) :
    actionable row = true ↔ resumeAction row healthy ≠ .cold := by
  simp only [actionable, Nat.not_le.mpr hfail, if_false, bne_iff_ne, ne_eq,
    resumeAction_eq_cold_iff]

/-! ### A step and a run -/

theorem CleanEvent.acquire {a : PassAnswer} (h : CleanEvent graceMs s (.step inc a)) {p : Pass}
    (hp : s.passes inc = some p) {sid : String} {todo : List String} {row : RecoveryRow}
    (hpc : p.pc = .next) (htodo : p.todo = sid :: todo) (hrow : s.rows sid = some row)
    (hacq : canAcquireLease row.ladderOwner inc p.nowMs = true) (hact : actionable row = true) :
    (∀ i q, i ≠ inc → s.passes i = some q → ∀ b ∈ q.busyOn, b.1 ≠ sid) ∧
      ∀ t ∈ s.takings, t.sessionId = sid → t.incarnation ≠ inc →
        (LadderOwner.fresh t.incarnation t.nowMs graceMs).expiryMs ≤ p.nowMs := by
  refine (h p hp).1 (sid, row) ?_
  simp [Pass.acquiring, hpc, htodo, readRecoveryRow, hrow, hacq, hact]

theorem Inv.read (h : Inv graceMs rows₀ s) {a : PassAnswer} {p : Pass}
    (hp : s.passes inc = some p) (hpc : p.pc = .next)
    (hclean : CleanEvent graceMs s (.step inc a)) : Inv graceMs rows₀ (passStep graceMs s inc p a) := by
  obtain ⟨now, todo₀, pc⟩ := p
  obtain rfl : pc = .next := hpc
  have hcrit : ∀ q ∈ s.passes inc, ∀ sid row, q.pc ≠ .writeCrit sid row := by
    intro q hq
    obtain rfl : ⟨now, todo₀, .next⟩ = q := by simpa [hp] using hq
    simp
  have hstay : ∀ todo, Inv graceMs rows₀ (s.setPass inc (some ⟨now, todo, .next⟩)) := fun todo =>
    h.idle hcrit (by simp [Pass.busyOn, Pass.Sorted])
  unfold passStep
  cases todo₀ with
  | nil => exact h.idle hcrit (by simp)
  | cons sid todo =>
      cases hrow : readRecoveryRow s.rows sid with
      | none =>
          simp only [hrow]
          exact hstay todo
      | some row =>
          have hpassed := h.take inc sid now row
          have hcrit' : ∀ q ∈ (s.take inc sid now row).passes inc, ∀ x rowx,
              q.pc ≠ .writeCrit x rowx := by simpa using hcrit
          simp only [hrow]
          split
          · exact hstay todo
          case isFalse hlease =>
            have hacq : canAcquireLease row.ladderOwner inc now = true := by simpa using hlease
            have hclean' := fun hact => hclean.acquire hp rfl rfl hrow hacq hact
            split
            case isTrue hfail =>
              split
              case isTrue hstate =>
                have hact := actionable_of_critDue hfail hstate
                exact h.acquire hp rfl hrow hact hacq (hclean' hact).1 (hclean' hact).2 rfl
                  (by simp [Pass.busyOn]) hfail
              case isFalse hstate => exact hpassed.idle hcrit' (by simp [Pass.busyOn, Pass.Sorted])
            case isFalse hfail =>
              have hsorted : row.consecutiveFailures < critConsecutiveFailures := by omega
              cases hact : actionable row with
              | true =>
                  exact h.acquire hp rfl hrow hact hacq (hclean' hact).1 (hclean' hact).2 rfl
                    (by simp [Pass.busyOn, hact]) hsorted
              | false =>
                  exact hpassed.idle hcrit' (by simpa [Pass.busyOn, Pass.Sorted, hact] using hsorted)

theorem Inv.passStep (h : Inv graceMs rows₀ s)
    (hfiled : ∀ sid row, rows₀ sid = some row → row.sessionId = sid) {a : PassAnswer} {p : Pass}
    (hp : s.passes inc = some p) (hclean : CleanEvent graceMs s (.step inc a)) :
    Inv graceMs rows₀ (passStep graceMs s inc p a) := by
  have hsorted := h.sorted inc p hp
  cases hpc : p.pc with
  | next => exact h.read hp hpc hclean
  | probe sid row =>
      have hfail : row.consecutiveFailures < critConsecutiveFailures := by
        simpa [Pass.Sorted, hpc] using hsorted
      have hnotCrit : ∀ q ∈ s.passes inc, ∀ x rowx, q.pc ≠ .writeCrit x rowx := by
        intro q hq
        obtain rfl : p = q := by simpa [hp] using hq
        simp [hpc]
      have hbusy : ∀ healthy, resumeAction row healthy ≠ .cold → p.busyOn = some (sid, row) := by
        intro healthy hcold
        simp [Pass.busyOn, hpc, (actionable_eq_resumes hfail healthy).mpr hcold]
      have hresume : resumeAction row (successorHealthy a.locks row) ≠ .cold →
          Inv graceMs rows₀ ((s.act ⟨inc, sid, p.nowMs, leaseUntil graceMs row inc p.nowMs⟩).setPass
            inc (some { p with pc := .next })) := fun hcold =>
        h.act hp (hbusy _ hcold) (fun x => .inl rfl) (by simp [hpc])
      unfold Lease.passStep
      rw [hpc]
      dsimp only
      split
      case h_1 hact =>
        have hb := hbusy (successorHealthy a.locks row) (by simp [hact])
        refine ⟨h.toWorking.advance hp hb rfl (by simp [Pass.busyOn]) hfail,
          h.toLogging.setPass hnotCrit (by simp)⟩
      case h_5 =>
        exact h.idle hnotCrit (by simp [Pass.busyOn, Pass.Sorted])
      all_goals
        rename_i hact
        exact hresume (by simp [hact])
  | logCrit sid row =>
      unfold Lease.passStep
      rw [hpc]
      exact h.logCrit hp hpc
  | writeCrit sid row =>
      have hb : p.busyOn = some (sid, row) := by simp [Pass.busyOn, hpc]
      have hok : a.writeOk sid = true := (hclean p hp).2 sid row hpc
      have hinert := actionable_crit row (by simpa [Pass.Sorted, hpc] using hsorted)
      have hfile := hfiled sid row (h.busy inc p hp sid row hb).found
      unfold Lease.passStep
      rw [hpc]
      refine h.act hp hb (rows_or_inert hinert _) ?_
      intro x rowx hx
      obtain ⟨rfl, rfl⟩ : sid = x ∧ row = rowx := by simpa [hpc] using hx
      refine ⟨_, ?_, hinert⟩
      rw [hok]
      subst hfile
      exact writeRecoveryRow_self s.rows { row with ladderState := .crit }
  | writeClear sid row =>
      have hb : p.busyOn = some (sid, row) := by simp [Pass.busyOn, hpc]
      have hinert := actionable_cleared row (by simpa [Pass.Sorted, hpc] using hsorted)
      unfold Lease.passStep
      rw [hpc]
      exact h.act hp hb (rows_or_inert hinert _) (by simp [hpc])

theorem Inv.step (h : Inv graceMs rows₀ s)
    (hfiled : ∀ sid row, rows₀ sid = some row → row.sessionId = sid) {e : Event}
    (hclean : CleanEvent graceMs s e) : Inv graceMs rows₀ (step graceMs s e) := by
  unfold Lease.step
  cases e with
  | begin inc now sessions =>
      dsimp only
      split
      case h_1 hnone => exact h.idle (by simp [hnone]) (by simp [Pass.busyOn, Pass.Sorted])
      case h_2 => exact h
  | step inc a =>
      dsimp only
      split
      case h_1 p hp => exact h.passStep hfiled hp hclean
      case h_2 => exact h
  | crash inc => exact h.idle hclean (by simp)

end

def Event.incarnation : Event → Nat
  | .begin inc _ _ | .step inc _ | .crash inc => inc

theorem passStep_eq_setPass (graceMs : Int) (s : Fleet) (inc : Nat) (p : Pass) (a : PassAnswer) :
    ∃ (s₀ : Fleet) (p' : Option Pass), passStep graceMs s inc p a = s₀.setPass inc p' ∧ s₀.passes = s.passes := by
  unfold passStep
  split
  · split
    · exact ⟨s, _, rfl, rfl⟩
    · split
      · exact ⟨s, _, rfl, rfl⟩
      · dsimp only
        split_ifs
        · exact ⟨s, _, rfl, rfl⟩
        · exact ⟨_, _, rfl, passes_take _ _ _ _ _⟩
        · exact ⟨_, _, rfl, passes_take _ _ _ _ _⟩
        · exact ⟨_, _, rfl, passes_take _ _ _ _ _⟩
  · split
    · exact ⟨s, _, rfl, rfl⟩
    · exact ⟨_, _, rfl, rfl⟩
    · exact ⟨_, _, rfl, rfl⟩
    · exact ⟨_, _, rfl, rfl⟩
    · exact ⟨s, _, rfl, rfl⟩
  · exact ⟨_, _, rfl, rfl⟩
  · exact ⟨_, _, rfl, rfl⟩
  · exact ⟨_, _, rfl, rfl⟩

theorem passes_step_of_ne (graceMs : Int) (s : Fleet) {i : Nat} {e : Event} (hi : i ≠ e.incarnation) :
    (step graceMs s e).passes i = s.passes i := by
  cases e with
  | begin inc now sessions =>
      simp only [step]
      split
      · exact (passes_setPass s inc i _).trans (if_neg hi)
      · rfl
  | step inc a =>
      simp only [step]
      split
      next p _ =>
        obtain ⟨s₀, p', heq, hpasses⟩ := passStep_eq_setPass graceMs s inc p a
        rw [heq, ← hpasses]
        exact (passes_setPass s₀ inc i p').trans (if_neg hi)
      · rfl
  | crash inc => exact (passes_setPass s inc i none).trans (if_neg hi)

theorem passes_foldl_of_ne (graceMs : Int) (run : List Event) {s : Fleet} {i : Nat}
    (h : ∀ e ∈ run, i ≠ e.incarnation) :
    (run.foldl (step graceMs) s).passes i = s.passes i := by
  induction run generalizing s with
  | nil => rfl
  | cons e run ih =>
      rw [List.foldl_cons, ih fun e' he' => h e' (List.mem_cons_of_mem e he'),
        passes_step_of_ne graceMs s (h e List.mem_cons_self)]

/-! ### A pass that runs alone -/

section

variable (graceMs : Int) (c : PassCall)

/-- The coordinator of a call takes a step, with what the call meets. -/
def aloneStep (s : Fleet) : Fleet :=
  step graceMs s (.step c.myIncarnation ⟨c.locks, c.writeOk⟩)

def critLogged (log : List Deed) : List String :=
  log.filterMap fun
    | .critLogged sid _ => some sid
    | _ => none

/-- The rows of the state, and the events that it has logged. -/
structure Fleet.Shows (s : Fleet) (st : State) : Prop where
  rows : s.rows = st.rows
  critLog : s.critLog = critLogged st.log

variable {s : Fleet} {st : State}

theorem exists_aloneStep_row (report : PassReport) {sid : String}
    {todo : List String} (hp : s.passes c.myIncarnation = some ⟨c.nowMs, sid :: todo, .next⟩)
    (h : s.Shows st) :
    ∃ n, ((aloneStep graceMs c)^[n] s).passes c.myIncarnation = some ⟨c.nowMs, todo, .next⟩ ∧
      ((aloneStep graceMs c)^[n] s).Shows (passRow c (st, report) sid).1 := by
  have hrows := h.rows
  have hcritLog := h.critLog
  unfold critLogged at hcritLog
  rw [passRow_fst]
  cases hread : readRecoveryRow st.rows sid with
  | none =>
      refine ⟨1, ?_, ?_, ?_⟩ <;>
        simp [aloneStep, step, hp, passStep, hrows, hread, critLogged, hcritLog]
  | some row =>
      by_cases hlease : canAcquireLease row.ladderOwner c.myIncarnation c.nowMs = true
      · by_cases hfail : critConsecutiveFailures ≤ row.consecutiveFailures
        · by_cases hstate : row.ladderState = .crit
          · refine ⟨1, ?_, ?_, ?_⟩ <;>
              simp [judgeRow, hlease, hfail, hstate, aloneStep, step, passStep, hp, hrows, hread, critLogged,
                hcritLog]
          · -- read, log, write
            refine ⟨3, ?_, ?_, ?_⟩ <;> cases hok : c.writeOk sid <;>
              simp [judgeRow, hlease, hfail, hstate, aloneStep, step, passStep, hp, hrows, hread,
                Fleet.write, Fleet.act, State.write, State.did, critLogged, hcritLog, hok]
        · cases hact : resumeAction row (successorHealthy c.locks row) with
          | successorHealthy =>
              -- read, probe, write
              refine ⟨3, ?_, ?_, ?_⟩ <;> cases hok : c.writeOk sid <;>
                simp [judgeRow, hlease, hfail, hact, aloneStep, step, passStep, hp, hrows, hread,
                  Fleet.write, Fleet.act, State.write, State.did, critLogged, hcritLog, hok]
          | reArm _ | reverifySuccessor _ | resumeKill _ | cold =>
              refine ⟨2, ?_, ?_, ?_⟩ <;>
                simp [judgeRow, hlease, hfail, hact, aloneStep, step, passStep, hp, hrows, hread,
                  Fleet.act, critLogged, hcritLog]
      · refine ⟨1, ?_, ?_, ?_⟩ <;>
          simp [judgeRow, hlease, aloneStep, step, passStep, hp, hrows, hread, critLogged, hcritLog]

theorem exists_aloneStep_pass (report : PassReport)
    {todo : List String} (hp : s.passes c.myIncarnation = some ⟨c.nowMs, todo, .next⟩)
    (h : s.Shows st) :
    ∃ n, ((aloneStep graceMs c)^[n] s).passes c.myIncarnation = none ∧
      ((aloneStep graceMs c)^[n] s).Shows (todo.foldl (passRow c) (st, report)).1 := by
  induction todo generalizing s st report with
  | nil =>
      refine ⟨1, ?_, ?_, ?_⟩
      · simp [aloneStep, step, hp, passStep]
      · simpa [aloneStep, step, hp, passStep] using h.rows
      · simpa [aloneStep, step, hp, passStep] using h.critLog
  | cons sid todo ih =>
      obtain ⟨n, hp', h'⟩ := exists_aloneStep_row graceMs c report hp h
      obtain ⟨m, hend⟩ := ih _ hp' h'
      refine ⟨m + n, ?_⟩
      rw [Function.iterate_add_apply]
      exact hend

theorem passes_iterate_of_ne {i : Nat} (hi : i ≠ c.myIncarnation) (n : Nat) :
    ((aloneStep graceMs c)^[n] s).passes i = s.passes i := by
  induction n generalizing s with
  | zero => rfl
  | succ n ih =>
      rw [Function.iterate_succ_apply, ih]
      exact passes_step_of_ne graceMs s hi

def beginAlone (s : Fleet) : Fleet :=
  step graceMs s (.begin c.myIncarnation c.nowMs c.sessions)

/-- **A pass that runs alone** is the pass as one function: its effects come to an end, leave the rows that
the function leaves, log what it logs, and touch no other pass. -/
theorem pass_alone_agrees (h : s.Shows st) (hidle : s.passes c.myIncarnation = none)
    (hbumped : c.bumped = true) :
    ∃ n, ((aloneStep graceMs c)^[n] (beginAlone graceMs c s)).Shows (coordinatorPass c st).1 ∧
      ((aloneStep graceMs c)^[n] (beginAlone graceMs c s)).passes = s.passes := by
  have hbegun : beginAlone graceMs c s = s.setPass c.myIncarnation (some ⟨c.nowMs, c.sessions, .next⟩) := by
    simp [beginAlone, step, hidle]
  have hpass : (beginAlone graceMs c s).passes c.myIncarnation = some ⟨c.nowMs, c.sessions, .next⟩ := by
    rw [hbegun, passes_setPass, if_pos rfl]
  have hshows : (beginAlone graceMs c s).Shows st := by
    rw [hbegun]
    exact ⟨h.rows, h.critLog⟩
  obtain ⟨n, hend, hleft⟩ :=
    exists_aloneStep_pass graceMs c { heartbeat := min (c.prevHeartbeat + 1) (2 ^ 64 - 1) } hpass hshows
  refine ⟨n, ?_, funext fun i => ?_⟩
  · rw [coordinatorPass, hbumped]
    exact hleft
  · by_cases hi : i = c.myIncarnation
    · rw [hi, hend, hidle]
    · rw [passes_iterate_of_ne graceMs c hi, hbegun, passes_setPass, if_neg hi]

end

def failedRow : Rows := fun sid =>
  if sid = "s" then some { RecoveryRow.cold "s" with consecutiveFailures := 9 } else none

def failedCall : PassCall where
  myIncarnation := 1
  prevHeartbeat := 0
  nowMs := 0
  bumped := true
  entries := some ["s.json"]
  locks := fun _ => .absent
  writeOk := fun _ => true

theorem pass_alone_failedRow :
    ∃ n, ((aloneStep 0 failedCall)^[n] (beginAlone 0 failedCall { rows := failedRow })).Shows
        (coordinatorPass failedCall { rows := failedRow }).1 ∧
      ((aloneStep 0 failedCall)^[n] (beginAlone 0 failedCall { rows := failedRow })).passes = fun _ => none :=
  pass_alone_agrees 0 failedCall ⟨rfl, rfl⟩ rfl rfl

/-- Coordinators keep apart as long as no two of them come to a free row within a
lease period, and what is logged is written. -/
theorem exclusive_of_cleanRun (graceMs : Int) (rows : Rows)
    (hfiled : ∀ sid row, rows sid = some row → row.sessionId = sid) (run : List Event)
    (hclean : Along (step graceMs) (CleanEvent graceMs) { rows } run) :
    Exclusive (run.foldl (step graceMs) { rows }) := by
  have hinv : Inv graceMs rows (run.foldl (step graceMs) { rows }) :=
    Along.invariant (fun _ _ h hc => h.step hfiled hc)
      (inv_start graceMs rows) hclean
  exact ⟨hinv.apart, hinv.critOnce⟩

/-- One unowned row of a respawn that was cut in `Killing`. -/
def cutRow : Rows := fun sid =>
  if sid = "s" then some { RecoveryRow.cold "s" with phase := .killing } else none

/-- A pass over that row: its reading, and the decision to resume it. -/
def passAt (inc : Nat) (nowMs : Int) : List Event :=
  [.begin inc nowMs ["s"], .step inc {}, .step inc {}]

/-- A second coordinator comes when the lease of the first would be over. -/
theorem exclusive_after_lease :
    Exclusive ((passAt 1 0 ++ passAt 2 96000).foldl (step 0) { rows := cutRow }) := by
  refine exclusive_of_cleanRun 0 cutRow ?_ _ ?_
  · intro sid row hrow
    unfold cutRow at hrow
    split at hrow
    case isTrue h =>
      obtain rfl := by simpa using hrow
      exact h.symm
    case isFalse => cases hrow
  · refine ⟨trivial, ?_, ?_, trivial, ?_, ?_, trivial⟩
    · rintro p ⟨⟩
      refine ⟨?_, by simp⟩
      rintro b ⟨⟩
      refine ⟨?_, by simp [step, Fleet.setPass]⟩
      intro inc' p' hne hp'
      simp [step, hne] at hp'
    · rintro p ⟨⟩
      exact ⟨by simp [Pass.acquiring], by simp⟩
    · rintro p ⟨⟩
      refine ⟨?_, by simp⟩
      rintro b ⟨⟩
      refine ⟨?_, by decide⟩
      intro inc' p' hne hp' b' hb'
      by_cases h1 : inc' = 1
      · subst h1
        cases hp'
        cases hb'
      · have hnone : ((passAt 1 0 ++ [Event.begin 2 96000 ["s"]]).foldl (step 0)
            { rows := cutRow }).passes inc' = none :=
          passes_foldl_of_ne 0 _ (by simp [passAt, Event.incarnation, h1, hne])
        cases hnone.symm.trans hp'
    · rintro p ⟨⟩
      exact ⟨by simp [Pass.acquiring], by simp⟩

/-- A second coordinator comes a second after the first: nothing fences it out. -/
theorem second_coordinator_not_exclusive :
    ¬ Exclusive ((passAt 1 0 ++ passAt 2 1000).foldl (step 0) { rows := cutRow }) := by
  decide

end QuorumDispatch.Recovery.Lease
