import QuorumDispatch.Recovery.Coordinator
import QuorumDispatch.Lib.Runs

/-!
Respawns cut at any point, and the passes that find what they left.

A run is a sequence of calls of `execute_rung4`, each moved on by single effects
and cut by a crash wherever that falls, and of passes of the coordinator between
them. The row written ahead of each step makes the kill and the spawn safe at
every cut. The pass is not: a row left in `Spawning` by a call that never
spawned names a successor without a lock file, which the probe does not prove
dead, and the pass takes it for healthy.
-/

namespace QuorumDispatch.Recovery

open Lib

/-! ### Reading the log -/

def lastWrote (log : List Deed) (sessionId : String) : Option RecoveryRow :=
  log.foldl (fun last d => match d with
    | .wrote row => if row.sessionId = sessionId then some row else last
    | _ => last) none

/-- The start time of a process as last read; `some none` when it was gone. -/
def lastReadStart (log : List Deed) (pid : Int) : Option (Option Int) :=
  log.foldl (fun last d => match d with
    | .readStart p startMs => if p = pid then some startMs else last
    | _ => last) none

def Deed.spawns (newSessionId : String) : Deed → Bool
  | .spawned _ nsid ok => ok && nsid == newSessionId
  | _ => false

@[simp] theorem lastWrote_snoc (log : List Deed) (d : Deed) (sid : String) :
    lastWrote (log ++ [d]) sid = match d with
      | .wrote row => if row.sessionId = sid then some row else lastWrote log sid
      | _ => lastWrote log sid := by
  simp [lastWrote]

@[simp] theorem lastReadStart_snoc (log : List Deed) (d : Deed) (pid : Int) :
    lastReadStart (log ++ [d]) pid = match d with
      | .readStart p startMs => if p = pid then some startMs else lastReadStart log pid
      | _ => lastReadStart log pid := by
  simp [lastReadStart]

def Deed.LawfulAfter (past : List Deed) : Deed → Prop
  | .killed sessionId old =>
      (∃ row ∈ lastWrote past sessionId, row.phase = .killing ∧ row.oldIdentity = some old) ∧
        ∃ live ∈ lastReadStart past old.pid, ∀ cur ∈ live, |cur - old.startMs| ≤ startTimeSlackMs
  | .spawned sessionId newSessionId _ =>
      ∃ row ∈ lastWrote past sessionId, row.newSessionId = some newSessionId
  | .cleared newSessionId => ∃ nsid ∈ newSessionId, past.any (Deed.spawns nsid) = true
  | .wrote _ | .readStart .. | .critLogged .. => True

instance (past : List Deed) : ∀ d, Decidable (Deed.LawfulAfter past d)
  | .killed sessionId old => inferInstanceAs (Decidable
      ((∃ row ∈ lastWrote past sessionId, row.phase = .killing ∧ row.oldIdentity = some old) ∧
        ∃ live ∈ lastReadStart past old.pid, ∀ cur ∈ live, |cur - old.startMs| ≤ startTimeSlackMs))
  | .spawned sessionId newSessionId _ => inferInstanceAs (Decidable
      (∃ row ∈ lastWrote past sessionId, row.newSessionId = some newSessionId))
  | .cleared newSessionId => inferInstanceAs (Decidable
      (∃ nsid ∈ newSessionId, past.any (Deed.spawns nsid) = true))
  | .wrote _ | .readStart .. | .critLogged .. => inferInstanceAs (Decidable True)

/-- Every kill comes after the row is durable as `Killing` and only on the recorded
process, every spawn after its id is durable, and every clearing after a spawn of
the recorded successor that succeeded. -/
def CrashIdempotent (log : List Deed) : Prop := EachAfter Deed.LawfulAfter log

instance (log : List Deed) : Decidable (CrashIdempotent log) :=
  inferInstanceAs (Decidable (EachAfter _ _))

theorem CrashIdempotent.snoc {log : List Deed} {d : Deed} (h : CrashIdempotent log)
    (hd : d.LawfulAfter log) : CrashIdempotent (log ++ [d]) :=
  eachAfter_snoc.mpr ⟨h, hd⟩

/-! ### Runs -/

inductive Event where
  /-- A call of `execute_rung4` begins. -/
  | start (row : RecoveryRow) (old : Identity) (oldRowStartedAt : Option Int)
  /-- The call in progress moves on by one effect. -/
  | exec (answer : Answer)
  /-- The process with the call in progress dies. -/
  | crash
  /-- A coordinator runs a pass; none runs during a call. -/
  | pass (call : PassCall)

def step (s : State) : Event → State
  | .start row old oldRowStartedAt =>
      match s.exec with
      | none => { s with exec := some { row, old, oldRowStartedAt, pc := .writeKilling } }
      | some _ => s
  | .exec a =>
      match s.exec with
      | some e => rung4Step s e a
      | none => s
  | .crash => { s with exec := none }
  | .pass call =>
      match s.exec with
      | none => (coordinatorPass call s).1
      | some _ => s

def State.Fresh (s : State) : Prop :=
  s.exec = none ∧ s.log = [] ∧
    ∀ sid row, s.rows sid = some row → row.phase ≠ .spawning ∧ row.phase ≠ .confirming

/-- A pass meets no row left in `Spawning` without a successor, unless it does not
get to judge it or finds the lock of the successor free. -/
def GuardedPass (s : State) (c : PassCall) : Prop :=
  ∀ sid ∈ c.sessions, ∀ row ∈ s.rows sid, row.phase = .spawning →
    ∀ nsid ∈ row.newSessionId, s.log.any (Deed.spawns nsid) = false →
      canAcquireLease row.ladderOwner c.myIncarnation c.nowMs = false ∨
      critConsecutiveFailures ≤ row.consecutiveFailures ∨ probeDead (c.locks nsid) = true

instance (s : State) (c : PassCall) : Decidable (GuardedPass s c) :=
  inferInstanceAs (Decidable (∀ sid ∈ c.sessions, ∀ row ∈ s.rows sid, row.phase = .spawning →
    ∀ nsid ∈ row.newSessionId, s.log.any (Deed.spawns nsid) = false →
      canAcquireLease row.ladderOwner c.myIncarnation c.nowMs = false ∨
      critConsecutiveFailures ≤ row.consecutiveFailures ∨ probeDead (c.locks nsid) = true))

/-- The condition on a step: the start times that the fence compares have a
difference that fits, and a pass meets no `Spawning` row without a successor. -/
def CleanEvent (s : State) : Event → Prop
  | .exec a => ∀ e ∈ s.exec, e.pc = .fence → ∀ cur ∈ a.currentStartMs,
      DriftFits cur e.old.startMs
  | .pass c => s.exec = none → GuardedPass s c
  | .start .. | .crash => True

instance (s : State) : ∀ e, Decidable (CleanEvent s e)
  | .exec a => inferInstanceAs (Decidable (∀ e ∈ s.exec, e.pc = .fence →
      ∀ cur ∈ a.currentStartMs, DriftFits cur e.old.startMs))
  | .pass c => inferInstanceAs (Decidable (s.exec = none → GuardedPass s c))
  | .start .. | .crash => inferInstanceAs (Decidable True)

/-! ### The invariant -/

def Exec.Ok (log : List Deed) (e : Exec) : Prop :=
  match e.pc with
  | .fence => lastWrote log e.row.sessionId = some e.row ∧ e.row.phase = .killing ∧
      e.row.oldIdentity = some e.old
  | .kill => (lastWrote log e.row.sessionId = some e.row ∧ e.row.phase = .killing ∧
      e.row.oldIdentity = some e.old) ∧
      ∃ live ∈ lastReadStart log e.old.pid, ∀ cur ∈ live, |cur - e.old.startMs| ≤ startTimeSlackMs
  | .spawn newSid => lastWrote log e.row.sessionId = some e.row ∧
      e.row.newSessionId = some newSid
  | .writeConfirming newSid _ => e.row.newSessionId = some newSid ∧
      log.any (Deed.spawns newSid) = true
  | _ => True

/-- A row past the mint names its successor, and past the spawn one that was spawned. -/
def RecoveryRow.Ok (log : List Deed) (row : RecoveryRow) : Prop :=
  (row.phase = .spawning ∨ row.phase = .confirming → row.newSessionId.isSome = true) ∧
    (row.phase = .confirming → ∀ nsid ∈ row.newSessionId, log.any (Deed.spawns nsid) = true)

structure Inv (s : State) : Prop where
  lawful : CrashIdempotent s.log
  rows : ∀ sid row, s.rows sid = some row → row.Ok s.log
  exec : ∀ e, s.exec = some e → e.Ok s.log

theorem RecoveryRow.Ok.of_pre_mint {log : List Deed} {row : RecoveryRow}
    (hs : row.phase ≠ .spawning) (hc : row.phase ≠ .confirming) : row.Ok log :=
  ⟨fun h => absurd h (by simp [hs, hc]), fun h => absurd h hc⟩

theorem RecoveryRow.Ok.mono {log : List Deed} {row : RecoveryRow} (h : row.Ok log) (d : Deed) :
    row.Ok (log ++ [d]) :=
  ⟨h.1, fun hc nsid hn => by simp [h.2 hc nsid hn]⟩

theorem State.Fresh.inv {s : State} (h : s.Fresh) : Inv s where
  lawful := by simp [h.2.1, CrashIdempotent]
  rows sid row hrow := .of_pre_mint (h.2.2 sid row hrow).1 (h.2.2 sid row hrow).2
  exec e he := by simp [h.1] at he

/-! ### Small steps of the state -/

/-- The part of the invariant that does not speak of the call in progress. -/
structure Settled (s : State) : Prop where
  lawful : CrashIdempotent s.log
  rows : ∀ sid row, s.rows sid = some row → row.Ok s.log

theorem Inv.settled {s : State} (h : Inv s) : Settled s := ⟨h.lawful, h.rows⟩

theorem Settled.did {s : State} (h : Settled s) {d : Deed} (hd : d.LawfulAfter s.log) :
    Settled (s.did d) :=
  ⟨h.lawful.snoc hd, fun sid row hrow => (h.rows sid row hrow).mono d⟩

theorem Settled.write {s : State} (h : Settled s) {row : RecoveryRow} (hrow : row.Ok s.log)
    (ok : Bool) : Settled (s.write row ok) := by
  constructor
  · cases ok with
    | false => exact h.lawful
    | true => exact h.lawful.snoc trivial
  · intro sid found hfound
    have hok : found.Ok s.log := by
      obtain ⟨-, -, rfl⟩ | hold := of_writeRecoveryRow hfound
      · exact hrow
      · exact h.rows sid found hold
    cases ok with
    | false => exact hok
    | true => exact hok.mono _

theorem Settled.goto {s : State} (h : Settled s) {e : Exec} {row : RecoveryRow} {pc : Pc}
    (he : Exec.Ok s.log { e with row, pc }) : Inv (s.goto e row pc) where
  lawful := h.lawful
  rows := h.rows
  exec e' he' := by
    obtain rfl : { e with row, pc } = e' := by simpa [State.goto] using he'
    exact he

theorem Settled.finish {s : State} (h : Settled s) (result : Option Rung4Outcome) :
    Inv (s.finish result) where
  lawful := h.lawful
  rows := h.rows
  exec e he := by simp [State.finish] at he

theorem Settled.writeThen {s : State} (h : Settled s) {row : RecoveryRow} {ok : Bool}
    {next : State → State} (hrow : row.Ok s.log)
    (hnext : Settled (s.write row true) → Inv (next (s.write row true))) :
    Inv (s.writeThen row ok next) := by
  cases ok with
  | false => exact (h.write hrow false).finish none
  | true => exact hnext (h.write hrow true)

@[simp] theorem lastWrote_write (s : State) (row : RecoveryRow) :
    lastWrote (s.write row true).log row.sessionId = some row := by
  simp [State.write]

/-! ### One effect -/

theorem Inv.rung4Step {s : State} (h : Inv s) {e : Exec} (he : s.exec = some e) {a : Answer}
    (hfits : e.pc = .fence → ∀ cur ∈ a.currentStartMs, DriftFits cur e.old.startMs) :
    Inv (rung4Step s e a) := by
  have hset := h.settled
  have hok := h.exec e he
  unfold Recovery.rung4Step
  unfold Exec.Ok at hok
  cases hpc : e.pc with
  | writeKilling =>
      refine hset.writeThen (.of_pre_mint (by simp) (by simp)) fun hw => hw.goto ?_
      exact ⟨lastWrote_write _ _, rfl, rfl⟩
  | fence =>
      simp only [hpc] at hok
      have hread : Settled (s.did (.readStart e.old.pid a.currentStartMs)) := hset.did trivial
      cases hcur : a.currentStartMs with
      | none =>
          rw [hcur] at hread
          refine hread.goto ⟨?_, none, ?_, by simp⟩
          · simpa [State.did] using hok
          · simp [State.did]
      | some cur =>
          rw [hcur] at hread
          dsimp only
          split
          · exact hread.goto trivial
          case isFalse hdrift =>
            refine hread.goto ⟨?_, some cur, ?_, ?_⟩
            · simpa [State.did] using hok
            · simp [State.did]
            · intro cur' hcur'
              obtain rfl : cur = cur' := by simpa using hcur'
              exact not_lt.mp ((startTimeDrifted_iff (hfits hpc cur (by simp [hcur]))).not.mp hdrift)
  | kill =>
      simp only [hpc] at hok
      obtain ⟨⟨hlast, hphase, hold⟩, hlive⟩ := hok
      have hkill : Settled (s.did (.killed e.row.sessionId e.old)) :=
        hset.did ⟨⟨e.row, hlast, hphase, hold⟩, hlive⟩
      cases a.kill with
      | killed => exact hkill.goto trivial
      | noSuchProcess => exact hkill.goto trivial
      | failed => exact hkill.finish none
  | tombstone =>
      dsimp only
      split
      · exact hset.goto trivial
      · exact hset.goto trivial
      · exact hset.goto trivial
  | abort outcome =>
      exact hset.writeThen (.of_pre_mint (by simp [RecoveryRow.idled])
        (by simp [RecoveryRow.idled])) fun hw => hw.finish _
  | writeTombstoned =>
      exact hset.writeThen (.of_pre_mint (by simp) (by simp)) fun hw => hw.goto trivial
  | mint =>
      dsimp only
      split
      · exact hset.goto trivial
      · exact hset.finish none
  | writeSpawning newSid =>
      refine hset.writeThen ⟨by simp, by simp⟩ fun hw => hw.goto ?_
      exact ⟨lastWrote_write _ _, rfl⟩
  | spawn newSid =>
      simp only [hpc] at hok
      have hspawn : Settled (s.did (.spawned e.row.sessionId newSid a.spawn.isSome)) :=
        hset.did ⟨e.row, hok⟩
      cases hans : a.spawn with
      | none =>
          rw [hans] at hspawn
          exact hspawn.finish _
      | some pid =>
          rw [hans] at hspawn
          refine hspawn.goto ⟨hok.2, ?_⟩
          simp [State.did, Deed.spawns]
  | writeConfirming newSid pid =>
      simp only [hpc] at hok
      refine hset.writeThen ⟨by simp [hok.1], ?_⟩ fun hw => hw.goto trivial
      intro _ nsid hn
      obtain rfl : newSid = nsid := by simpa [hok.1] using hn
      exact hok.2
  | confirm newSid pid =>
      dsimp only
      split
      · exact hset.goto trivial
      · split
        · exact hset.finish _
        · exact h
  | writeRecovered newSid pid =>
      exact hset.writeThen (.of_pre_mint (by simp [RecoveryRow.idled])
        (by simp [RecoveryRow.idled])) fun hw => hw.finish _

/-! ### A pass -/

structure PassInv (c : PassCall) (s : State) : Prop extends Settled s where
  guarded : GuardedPass s c

theorem GuardedPass.did {s : State} {c : PassCall} (h : GuardedPass s c) (d : Deed) :
    GuardedPass (s.did d) c := by
  intro sid hsid row hrow hphase nsid hn hnone
  refine h sid hsid row hrow hphase nsid hn ?_
  simp only [State.did, List.any_append, Bool.or_eq_false_iff] at hnone
  exact hnone.1

theorem GuardedPass.write {s : State} {c : PassCall} (h : GuardedPass s c) {row : RecoveryRow}
    (hrow : row.phase = .spawning → critConsecutiveFailures ≤ row.consecutiveFailures)
    (ok : Bool) : GuardedPass (s.write row ok) c := by
  intro sid hsid found hfound hphase nsid hn hnone
  obtain ⟨-, -, rfl⟩ | hold := of_writeRecoveryRow hfound
  · exact .inr (.inl (hrow hphase))
  · refine h sid hsid found hold hphase nsid hn ?_
    cases ok with
    | false => exact hnone
    | true => simpa [State.write, Deed.spawns] using hnone

theorem PassInv.passRow {c : PassCall} (acc : State × PassReport) (h : PassInv c acc.1)
    {sid : String} (hsid : sid ∈ c.sessions) : PassInv c (passRow c acc sid).1 := by
  rw [passRow_fst]
  cases hread : readRecoveryRow acc.1.rows sid with
  | none => exact h
  | some row =>
      have hrowOk := h.rows sid row hread
      dsimp only
      cases hjudge : judgeRow c.myIncarnation c.nowMs c.locks row with
      | fencedOut => exact h
      | standingCrit => exact h
      | resumed => exact h
      | cold => exact h
      | markCrit row' =>
          obtain ⟨rfl, hfail⟩ := judgeRow_eq_markCrit hjudge
          have hlog : Settled (acc.1.did (.critLogged sid row.consecutiveFailures)) :=
            h.toSettled.did trivial
          have hcrit : { row with ladderState := .crit }.Ok
              (acc.1.did (.critLogged sid row.consecutiveFailures)).log := hrowOk.mono _
          have hmany : { row with ladderState := .crit }.phase = .spawning →
              critConsecutiveFailures ≤ { row with ladderState := .crit }.consecutiveFailures :=
            fun _ => hfail
          exact ⟨hlog.write hcrit _, (h.guarded.did _).write hmany _⟩
      | clear row' =>
          obtain ⟨rfl, hphase, hlease, hfew, nsid, hn, hprobe⟩ := judgeRow_eq_clear hjudge
          -- the row is past the mint: past the spawn too, or guarded against
          have hspawned : acc.1.log.any (Deed.spawns nsid) = true := by
            obtain hspawning | hconfirming := hphase
            · by_contra hnot
              obtain hfenced | hmany | hdead := h.guarded sid hsid row hread hspawning nsid hn
                (by simpa using hnot)
              · simp [hlease] at hfenced
              · omega
              · simp [hprobe] at hdead
            · exact hrowOk.2 hconfirming nsid hn
          have hidle : row.cleared.phase = .idle := rfl
          have hlog : Settled (acc.1.did (.cleared row.newSessionId)) :=
            h.toSettled.did (d := .cleared row.newSessionId) ⟨nsid, hn, hspawned⟩
          exact ⟨hlog.write (.of_pre_mint (by simp [hidle]) (by simp [hidle])) _,
            (h.guarded.did _).write (by simp [hidle]) _⟩

theorem PassInv.foldl {c : PassCall} {sids : List String} {s : State} {report : PassReport}
    (h : PassInv c s) (hsids : ∀ sid ∈ sids, sid ∈ c.sessions) :
    PassInv c (sids.foldl (Recovery.passRow c) (s, report)).1 := by
  induction sids generalizing s report with
  | nil => exact h
  | cons sid sids ih =>
      have hrow : PassInv c (Recovery.passRow c (s, report) sid).1 :=
        PassInv.passRow (s, report) h (hsids sid (by simp))
      exact ih hrow fun x hx => hsids x (by simp [hx])

theorem exec_foldl_passRow (c : PassCall) (sids : List String) (acc : State × PassReport) :
    (sids.foldl (passRow c) acc).1.exec = acc.1.exec := by
  induction sids generalizing acc with
  | nil => rfl
  | cons sid sids ih =>
      rw [List.foldl_cons, ih, passRow_fst]
      split
      · rfl
      · split <;> rfl

theorem Inv.coordinatorPass {s : State} (h : Inv s) {c : PassCall} (hexec : s.exec = none)
    (hguard : GuardedPass s c) : Inv (coordinatorPass c s).1 := by
  unfold Recovery.coordinatorPass
  dsimp only
  split
  · exact h
  · have hpass : PassInv c s := ⟨h.settled, hguard⟩
    refine ⟨(hpass.foldl fun sid hsid => hsid).lawful, (hpass.foldl fun sid hsid => hsid).rows,
      fun e he => ?_⟩
    rw [exec_foldl_passRow, hexec] at he
    cases he

/-! ### Whole runs -/

theorem Inv.step {s : State} {e : Event} (h : Inv s) (hclean : CleanEvent s e) :
    Inv (step s e) := by
  unfold Recovery.step
  cases e with
  | start row old startedAt =>
      dsimp only
      split
      · refine ⟨h.lawful, h.rows, fun e he => ?_⟩
        obtain rfl := by simpa using he
        trivial
      · exact h
  | exec a =>
      dsimp only
      split
      case h_1 e he => exact h.rung4Step he (hclean e he)
      case h_2 => exact h
  | crash => exact ⟨h.lawful, h.rows, fun e he => by simp at he⟩
  | pass c =>
      dsimp only
      split
      case h_1 he => exact h.coordinatorPass he (hclean he)
      case h_2 => exact h

/-- However calls are cut and whatever the effects answer, kills, spawns and
clearings stay in order, as long as no pass meets a `Spawning` row without a
successor. -/
theorem crashIdempotent_of_cleanRun {s : State} (hs : s.Fresh) (run : List Event)
    (hclean : Along step CleanEvent s run) : CrashIdempotent (run.foldl step s).log :=
  (Along.invariant (fun _ _ h hc => h.step hc) hs.inv hclean).lawful

/-- A respawn of session `s` up to the durable `Spawning` row with the minted id. -/
def respawnUpToSpawning : List Event :=
  [.start (.cold "s") ⟨7, 1000, 1⟩ (some 900), .exec {}, .exec { currentStartMs := some 1500 },
    .exec {}, .exec { entry := some (some 900) }, .exec {}, .exec { mint := some "n" }, .exec {}]

/-- A pass that finds the row of session `s` and this lock file for its successor. -/
def passOver (lock : LockFile) : Event :=
  .pass {
    myIncarnation := 1, prevHeartbeat := 0, nowMs := 5000, bumped := true
    entries := some ["s.json"], locks := fun _ => lock, writeOk := fun _ => true }

/-- A call that spawned and then crashed: the pass finds the successor's lock held. -/
theorem crashIdempotent_spawnThenCrash :
    CrashIdempotent ((respawnUpToSpawning ++
      [.exec { spawn := some 8 }, .crash, passOver .held]).foldl step {}).log :=
  crashIdempotent_of_cleanRun (s := {}) ⟨rfl, rfl, by simp⟩ _ (by decide +kernel)

/-- A call that crashed ahead of the spawn: the pass finds no lock file and clears
the row of a session that was never respawned. -/
theorem crash_before_spawn_not_crashIdempotent :
    ¬ CrashIdempotent ((respawnUpToSpawning ++ [.crash, passOver .absent]).foldl step {}).log := by
  decide +kernel

end QuorumDispatch.Recovery
