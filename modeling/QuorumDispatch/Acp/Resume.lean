import Mathlib.Logic.Function.Basic
import Mathlib.Data.List.Basic
import Mathlib.Data.List.Infix
import Mathlib.Data.List.Perm.Subperm
import QuorumDispatch.Lib.Partial

/-!
The resume of an ACP session (`resume_acp`): gates that look for a live owner, an exclusive
claim, the spawn of an adapter, and the row of the registry. Any number of runs for one
session interleave, each in a process of its own.
-/

namespace QuorumDispatch.Acp

open Lib

/-- A row `<pid>.json` of the registry, as far as a resume reads or writes it. -/
structure ResumeRow where
  pid : Int
  sessionId : Option String
  name : Option String
  cwd : Option String
  endpoint : Option String
  status : Option String
  structuredSendIssued : Option Bool
deriving DecidableEq, Repr

structure LiveRow where
  sessionId : String
  name : Option String
  pid : Int
deriving DecidableEq, Repr

inductive LiveIdCollision where
  | resumable
  | alreadyAlive (pid : Int)
  | collision (rows : List LiveRow)
deriving DecidableEq, Repr

def detectLiveIdCollision (targetId : String) (alive : List LiveRow) : LiveIdCollision :=
  if targetId = "" then .resumable
  else
    match alive.filter fun r => r.sessionId = targetId with
    | [] => .resumable
    | [row] => .alreadyAlive row.pid
    | rows => .collision rows

def aliveRowsWithId (rows : List ResumeRow) (isPidAlive : Int → Bool) (targetId : String) : List LiveRow :=
  if targetId = "" then []
  else (rows.filter fun r => r.sessionId = some targetId && isPidAlive r.pid).map fun r =>
    { sessionId := targetId, name := r.name, pid := r.pid }

def idCollisionRefusal (rows : List ResumeRow) (isPidAlive : Int → Bool) (targetId : String) :
    Option (List LiveRow) :=
  match detectLiveIdCollision targetId (aliveRowsWithId rows isPidAlive targetId) with
  | .collision rows => some rows
  | _ => none

def alivePidForId (rows : List ResumeRow) (isPidAlive : Int → Bool) (targetId : String) : Option Int :=
  match detectLiveIdCollision targetId (aliveRowsWithId rows isPidAlive targetId) with
  | .alreadyAlive pid => some pid
  | _ => none

def adapterVerb : String := "acp-daemon"

/-- `str::contains`. -/
def containsText (text part : String) : Bool := decide (part.toList <:+: text.toList)

def cmdlineIsOurAcpDaemon (cmdline endpoint : Option String) : Bool :=
  match cmdline with
  | none => false
  | some cmd =>
      containsText cmd adapterVerb &&
        match endpoint with
        | none | some "" => true
        | some ep => containsText cmd ep

def acpResumeIsAlive (currentPid : Option Int) (currentEndpoint : Option String) (isPidAlive : Int → Bool)
    (cmdlineProbe : Int → Option String) : Bool :=
  let endpointSet := currentEndpoint.any (· ≠ "")
  let pid := currentPid.filter (· ≠ 0)
  if pid.any isPidAlive && endpointSet then
    cmdlineIsOurAcpDaemon (pid.bind cmdlineProbe) currentEndpoint
  else false

/-- The send history of a session outlives its connections: that of the row, or of the
tombstone if there is no row. -/
def carryForwardStructuredSendIssued (rows tombstones : List ResumeRow) (pid : Option Int) : Option Bool := do
  let pid ← pid
  let row ← (rows.find? (·.pid = pid)).or (tombstones.find? (·.pid = pid))
  row.structuredSendIssued

inductive Harness where
  | claudeCode
  | codex
  | pi
  | opencode
deriving DecidableEq, Repr

structure AcpResumeParams where
  name : String
  harness : Harness
  cwd : Option String
  hasJsonl : Bool
  currentPid : Option Int
  currentEndpoint : Option String
deriving DecidableEq, Repr

inductive AcpResumeOutcome where
  | alreadyRunning (name : String)
  | revived (name : String) (pid : Int) (endpoint : String)
deriving DecidableEq, Repr

inductive AcpResumeError where
  | noResumableTranscript (name : String)
  | idCollision (rows : List LiveRow)
  | alreadyAliveElsewhere (name : String) (pid : Int)
  | resumeInProgress (name : String)
  | claimLockFailed (name detail : String)
  | portAllocFailed (name detail : String)
  | exeUnresolved (name detail : String)
  | spawnFailed (name detail : String)
  | notReady (name detail : String)
  | wrongAdapter (name established requested : String)
  | rowWriteFailed (name detail : String)
deriving DecidableEq, Repr

/-- Where a run stands. A run that passed its gates remembers how many rows had been written
when it passed the last of them. -/
inductive ResumePhase where
  | entry
  | aliveGate
  | collisionGate
  | elsewhereGate
  | claiming (seen : Nat)
  | spawning
  | readying (pid : Int) (endpoint : String)
  | confirming (pid : Int) (endpoint : String)
  | writing (pid : Int) (endpoint : String)
  | consuming (pid : Int) (endpoint : String)
  | releasing (result : Except AcpResumeError AcpResumeOutcome)
  | returned (result : Except AcpResumeError AcpResumeOutcome)

/-- A live adapter of the session, and the run that spawned it. -/
structure Adapter where
  pid : Int
  run : Nat
deriving DecidableEq, Repr

/-- What the world answers to a step of a run. `others` are the pids of processes that are no
adapters of the session. -/
structure Answers where
  others : Int → Bool := fun _ => false
  cmdline : Int → Option String := fun _ => none
  lockFile : Except String Unit := .ok ()
  port : Except String Nat := .ok 0
  harnessPort : Except String Unit := .ok ()
  exeKnown : Bool := true
  spawned : Except String Int
  ready : Except String Unit := .ok ()
  established : String
  rowWrite : Except String Unit := .ok ()

/-- The registry, the live adapters of the session and its resume lock. `wrote` are the runs
that have written a row, newest first. -/
structure Resumes where
  sessionId : String
  rows : List ResumeRow
  tombstones : List ResumeRow := []
  adapters : List Adapter := []
  holder : Option Nat := none
  runs : List AcpResumeParams := []
  phase : Nat → ResumePhase := fun _ => .entry
  wrote : List Nat := []

namespace Resumes

def isPidAlive (w : Resumes) (a : Answers) (pid : Int) : Bool :=
  w.adapters.any (·.pid = pid) || a.others pid

def setPhase (w : Resumes) (k : Nat) (phase : ResumePhase) : Resumes :=
  { w with phase := Function.update w.phase k phase }

def kill (w : Resumes) (pid : Int) : Resumes :=
  { w with adapters := w.adapters.filter (·.pid ≠ pid) }

def writeEntry (w : Resumes) (k : Nat) (row : ResumeRow) : Resumes :=
  { w with rows := row :: w.rows.filter (·.pid ≠ row.pid), wrote := k :: w.wrote }

def advance? (w : Resumes) (k : Nat) (p : AcpResumeParams) (a : Answers) : Option Resumes :=
  match w.phase k with
  | .entry =>
      if w.sessionId = "" ∨ (p.harness = .claudeCode ∧ !p.hasJsonl) then
        some (w.setPhase k (.returned (.error (.noResumableTranscript p.name))))
      else some (w.setPhase k .aliveGate)
  | .aliveGate =>
      if acpResumeIsAlive p.currentPid p.currentEndpoint (w.isPidAlive a) a.cmdline then
        some (w.setPhase k (.returned (.ok (.alreadyRunning p.name))))
      else some (w.setPhase k .collisionGate)
  | .collisionGate =>
      match idCollisionRefusal w.rows (w.isPidAlive a) w.sessionId with
      | some rows => some (w.setPhase k (.returned (.error (.idCollision rows))))
      | none => some (w.setPhase k .elsewhereGate)
  | .elsewhereGate =>
      match alivePidForId w.rows (w.isPidAlive a) w.sessionId with
      | some pid => some (w.setPhase k (.returned (.error (.alreadyAliveElsewhere p.name pid))))
      | none => some (w.setPhase k (.claiming w.wrote.length))
  | .claiming _ =>
      match a.lockFile with
      | .error detail => some (w.setPhase k (.returned (.error (.claimLockFailed p.name detail))))
      | .ok () =>
          if w.holder.isSome then some (w.setPhase k (.returned (.error (.resumeInProgress p.name))))
          else some { w.setPhase k .spawning with holder := some k }
  | .spawning =>
      match a.port, a.harnessPort, a.exeKnown, a.spawned with
      | .error detail, _, _, _ | _, .error detail, _, _ =>
          some (w.setPhase k (.releasing (.error (.portAllocFailed p.name detail))))
      | _, _, false, _ =>
          some (w.setPhase k (.releasing (.error (.exeUnresolved p.name "no executable path"))))
      | _, _, _, .error detail =>
          some (w.setPhase k (.releasing (.error (.spawnFailed p.name detail))))
      | .ok port, _, _, .ok pid => do
          -- a new process has a pid of its own
          guard (∀ adapter ∈ w.adapters, adapter.pid ≠ pid)
          some { w.setPhase k (.readying pid ("ws://127.0.0.1:" ++ toString port)) with
            adapters := { pid, run := k } :: w.adapters }
  | .readying pid endpoint =>
      match a.ready with
      | .error detail => some ((w.kill pid).setPhase k (.releasing (.error (.notReady p.name detail))))
      | .ok () => some (w.setPhase k (.confirming pid endpoint))
  | .confirming pid endpoint =>
      if a.established ≠ w.sessionId then
        some ((w.kill pid).setPhase k
          (.releasing (.error (.wrongAdapter p.name a.established w.sessionId))))
      else some (w.setPhase k (.writing pid endpoint))
  | .writing pid endpoint =>
      match a.rowWrite with
      | .error detail => some ((w.kill pid).setPhase k (.releasing (.error (.rowWriteFailed p.name detail))))
      | .ok () =>
          some ((w.writeEntry k {
            pid
            sessionId := some w.sessionId
            name := some p.name
            cwd := some ((p.cwd.filter (· ≠ "")).getD ".")
            endpoint := some endpoint
            status := some "idle"
            structuredSendIssued :=
              carryForwardStructuredSendIssued w.rows w.tombstones p.currentPid }).setPhase k
            (.consuming pid endpoint))
  | .consuming pid endpoint =>
      some { w.setPhase k (.releasing (.ok (.revived p.name pid endpoint))) with
        tombstones := w.tombstones.filter fun row => some row.pid ≠ p.currentPid.filter (· ≠ 0) }
  | .releasing result => some { w.setPhase k (.returned result) with holder := none }
  | .returned _ => none

inductive Step where
  | call (p : AcpResumeParams)
  | advance (k : Nat) (a : Answers)
  | adapterDies (pid : Int)

def step? (w : Resumes) : Step → Option Resumes
  | .call p => some { w with runs := w.runs ++ [p] }
  | .advance k a => do w.advance? k (← w.runs[k]?) a
  | .adapterDies pid => some (w.kill pid)

def run? (w : Resumes) (steps : List Step) : Option Resumes := steps.foldlM step? w

/-- A run takes the lock only while its gates still tell the truth: no row was written since
it passed the last of them, or no adapter is left. And the last gate meets no collision, which
it would let pass: that one is refused by the gate before it. -/
def gatesFresh (w : Resumes) : Step → Bool
  | .advance k a =>
      match w.phase k with
      | .elsewhereGate =>
          (idCollisionRefusal w.rows (w.isPidAlive a) w.sessionId).isNone || w.adapters.isEmpty
      | .claiming seen => w.holder.isSome || seen = w.wrote.length || w.adapters.isEmpty
      | _ => true
  | _ => true

def liveRows (w : Resumes) : List ResumeRow :=
  w.rows.filter fun row => row.sessionId = some w.sessionId && w.adapters.any (·.pid = row.pid)

end Resumes

/-! ### What a step can do -/

namespace ResumePhase

def own : ResumePhase → Option Int
  | .readying pid _ | .confirming pid _ | .writing pid _ => some pid
  | _ => none

def holds : ResumePhase → Bool
  | .spawning | .readying .. | .confirming .. | .writing .. | .consuming .. | .releasing _ => true
  | _ => false

def succeeded : ResumePhase → Bool
  | .consuming .. | .releasing (.ok _) | .returned (.ok _) => true
  | _ => false

def gating : ResumePhase → Bool
  | .aliveGate | .collisionGate | .elsewhereGate => true
  | _ => false

theorem holds_of_own {phase : ResumePhase} {pid : Int} (h : phase.own = some pid) : phase.holds = true := by
  cases phase with
  | readying | confirming | writing => rfl
  | _ => cases h

theorem own_of_succeeded {phase : ResumePhase} (h : phase.succeeded = true) : phase.own = none := by
  cases phase with
  | readying | confirming | writing => cases h
  | _ => rfl

end ResumePhase

namespace Resumes

variable {w w' : Resumes} {k : Nat} {p : AcpResumeParams} {a : Answers}

@[simp] theorem setPhase_adapters (phase : ResumePhase) : (w.setPhase k phase).adapters = w.adapters := rfl
@[simp] theorem setPhase_holder (phase : ResumePhase) : (w.setPhase k phase).holder = w.holder := rfl
@[simp] theorem setPhase_wrote (phase : ResumePhase) : (w.setPhase k phase).wrote = w.wrote := rfl
@[simp] theorem setPhase_sessionId (phase : ResumePhase) :
    (w.setPhase k phase).sessionId = w.sessionId := rfl
@[simp] theorem setPhase_self (phase : ResumePhase) : (w.setPhase k phase).phase k = phase :=
  Function.update_self ..
theorem setPhase_of_ne {j : Nat} (h : j ≠ k) (phase : ResumePhase) :
    (w.setPhase k phase).phase j = w.phase j :=
  Function.update_of_ne h ..

/-- The effects of a step of run `k`. -/
inductive Effect (w : Resumes) (k : Nat) (a : Answers) : Resumes → Prop where
  | gate {phase : ResumePhase} (hgate : (w.phase k).holds = false) (hsucceeded : (w.phase k).succeeded = false)
      (hnew : phase.holds = false) (hclaiming : ∀ seen, phase ≠ .claiming seen)
      (hnamed : phase.gating = true → (w.phase k).gating = true ∨ w.sessionId ≠ "") :
      Effect w k a (w.setPhase k phase)
  | passed (hphase : w.phase k = .elsewhereGate)
      (hnone : alivePidForId w.rows (w.isPidAlive a) w.sessionId = none) :
      Effect w k a (w.setPhase k (.claiming w.wrote.length))
  | claim {seen : Nat} (hphase : w.phase k = .claiming seen) (hfree : w.holder = none) :
      Effect w k a { w.setPhase k .spawning with holder := some k }
  | spawn {pid : Int} {endpoint : String} (hphase : w.phase k = .spawning)
      (hfresh : ∀ adapter ∈ w.adapters, adapter.pid ≠ pid) :
      Effect w k a { w.setPhase k (.readying pid endpoint) with adapters := { pid, run := k } :: w.adapters }
  | ready {phase : ResumePhase} {pid : Int} (hown : (w.phase k).own = some pid)
      (hnew : phase.own = some pid) : Effect w k a (w.setPhase k phase)
  | fail {e : AcpResumeError} (hholds : (w.phase k).holds = true) (hsucceeded : (w.phase k).succeeded = false) :
      Effect w k a ((((w.phase k).own.map w.kill).getD w).setPhase k (.releasing (.error e)))
  | write {pid : Int} {endpoint : String} {row : ResumeRow} (hphase : w.phase k = .writing pid endpoint)
      (hpid : row.pid = pid) (hrow : row.sessionId = some w.sessionId) :
      Effect w k a ((w.writeEntry k row).setPhase k (.consuming pid endpoint))
  | consume {pid : Int} {endpoint : String} {outcome : AcpResumeOutcome} {tombstones : List ResumeRow}
      (hphase : w.phase k = .consuming pid endpoint) :
      Effect w k a { w.setPhase k (.releasing (.ok outcome)) with tombstones }
  | release {result : Except AcpResumeError AcpResumeOutcome} (hphase : w.phase k = .releasing result) :
      Effect w k a { w.setPhase k (.returned result) with holder := none }

theorem effect_of_advance? (h : w.advance? k p a = some w') : Effect w k a w' := by
  -- an exit after the spawn stops the adapter of the run
  have hkill : ∀ {pid : Int} {e : AcpResumeError}, (w.phase k).own = some pid →
      (w.phase k).succeeded = false → Effect w k a ((w.kill pid).setPhase k (.releasing (.error e))) := by
    intro pid e hown hsucceeded
    have heffect := Effect.fail (w := w) (k := k) (a := a) (e := e) (ResumePhase.holds_of_own hown) hsucceeded
    rwa [hown] at heffect
  unfold advance? at h
  cases hphase : w.phase k with
  | entry =>
      rw [hphase] at h
      dsimp only at h
      split at h
      · cases h
        exact .gate (by rw [hphase]; rfl) (by rw [hphase]; rfl) rfl (by rintro _ ⟨⟩) (by rintro ⟨⟩)
      next hnamed =>
        cases h
        exact .gate (by rw [hphase]; rfl) (by rw [hphase]; rfl) rfl (by rintro _ ⟨⟩)
          fun _ => .inr fun hempty => hnamed (.inl hempty)
  | aliveGate =>
      rw [hphase] at h
      dsimp only at h
      split at h <;> cases h <;>
        exact .gate (by rw [hphase]; rfl) (by rw [hphase]; rfl) rfl (by rintro _ ⟨⟩)
          fun _ => .inl (by rw [hphase]; rfl)
  | collisionGate =>
      rw [hphase] at h
      dsimp only at h
      split at h <;> cases h <;>
        exact .gate (by rw [hphase]; rfl) (by rw [hphase]; rfl) rfl (by rintro _ ⟨⟩)
          fun _ => .inl (by rw [hphase]; rfl)
  | elsewhereGate =>
      rw [hphase] at h
      dsimp only at h
      split at h
      next =>
        cases h
        exact .gate (by rw [hphase]; rfl) (by rw [hphase]; rfl) rfl (by rintro _ ⟨⟩) (by rintro ⟨⟩)
      next hnone =>
        cases h
        exact .passed hphase hnone
  | claiming seen =>
      rw [hphase] at h
      dsimp only at h
      split at h
      next =>
        cases h
        exact .gate (by rw [hphase]; rfl) (by rw [hphase]; rfl) rfl (by rintro _ ⟨⟩) (by rintro ⟨⟩)
      next =>
        split at h
        next =>
          cases h
          exact .gate (by rw [hphase]; rfl) (by rw [hphase]; rfl) rfl (by rintro _ ⟨⟩) (by rintro ⟨⟩)
        next hfree =>
          cases h
          exact .claim hphase (by simpa using hfree)
  | spawning =>
      have hfail : ∀ e, Effect w k a (w.setPhase k (.releasing (.error e))) := fun e => by
        have heffect := Effect.fail (w := w) (k := k) (a := a) (e := e) (by rw [hphase]; rfl) (by rw [hphase]; rfl)
        rwa [hphase] at heffect
      rw [hphase] at h
      dsimp only at h
      split at h
      · cases h
        exact hfail _
      · cases h
        exact hfail _
      · cases h
        exact hfail _
      · cases h
        exact hfail _
      · obtain ⟨hfresh, h⟩ := guard_bind_eq_some.mp h
        cases h
        exact .spawn hphase hfresh
  | readying pid endpoint =>
      rw [hphase] at h
      dsimp only at h
      split at h
      · cases h
        exact hkill (by rw [hphase]; rfl) (by rw [hphase]; rfl)
      · cases h
        exact .ready (by rw [hphase]; rfl) rfl
  | confirming pid endpoint =>
      rw [hphase] at h
      dsimp only at h
      split at h
      · cases h
        exact hkill (by rw [hphase]; rfl) (by rw [hphase]; rfl)
      · cases h
        exact .ready (by rw [hphase]; rfl) rfl
  | writing pid endpoint =>
      rw [hphase] at h
      dsimp only at h
      split at h
      · cases h
        exact hkill (by rw [hphase]; rfl) (by rw [hphase]; rfl)
      · cases h
        exact .write hphase rfl rfl
  | consuming pid endpoint =>
      rw [hphase] at h
      cases h
      exact .consume hphase
  | releasing result =>
      rw [hphase] at h
      cases h
      exact .release hphase
  | returned result =>
      rw [hphase] at h
      cases h

/-! ### Runs that fail -/

/-- What a run has left: a row, or an adapter, only if it did not fail. -/
structure Clean (w : Resumes) : Prop where
  wrote : ∀ k ∈ w.wrote, (w.phase k).succeeded = true
  adapter : ∀ adapter ∈ w.adapters,
    (w.phase adapter.run).own = some adapter.pid ∨ (w.phase adapter.run).succeeded = true

/-- A step that moves a run on, and adds no row and no adapter. -/
theorem Clean.move (h : Clean w) {phase : ResumePhase}
    (hsucceeded : (w.phase k).succeeded = true → phase.succeeded = true)
    (hown : ∀ pid, (w.phase k).own = some pid → phase.own = some pid ∨ phase.succeeded = true) :
    Clean (w.setPhase k phase) := by
  refine ⟨fun j hj => ?_, fun adapter hadapter => ?_⟩
  · by_cases hjk : j = k
    · subst hjk
      rw [setPhase_self]
      exact hsucceeded (h.wrote j hj)
    · rw [setPhase_of_ne hjk]
      exact h.wrote j hj
  · by_cases hjk : adapter.run = k
    · subst hjk
      rw [setPhase_self]
      exact (h.adapter adapter hadapter).elim (hown adapter.pid) fun hs => .inr (hsucceeded hs)
    · rw [setPhase_of_ne hjk]
      exact h.adapter adapter hadapter

theorem Clean.kill (h : Clean w) (pid : Int) : Clean (w.kill pid) :=
  ⟨h.wrote, fun adapter hadapter => h.adapter adapter (List.mem_of_mem_filter hadapter)⟩

theorem Clean.fail (h : Clean w) {e : AcpResumeError} (hsucceeded : (w.phase k).succeeded = false) :
    Clean ((((w.phase k).own.map w.kill).getD w).setPhase k (.releasing (.error e))) := by
  refine ⟨fun j hj => ?_, fun adapter hadapter => ?_⟩
  · have hwrote : j ∈ w.wrote := by
      have hsame : ((((w.phase k).own.map w.kill).getD w).setPhase k (.releasing (.error e))).wrote = w.wrote := by
        cases (w.phase k).own <;> rfl
      exact hsame ▸ hj
    have hjk : j ≠ k := by
      rintro rfl
      rw [h.wrote j hwrote] at hsucceeded
      cases hsucceeded
    rw [setPhase_of_ne hjk]
    cases (w.phase k).own <;> exact h.wrote j hwrote
  · have hmem : adapter ∈ w.adapters ∧ ∀ pid, (w.phase k).own = some pid → adapter.pid ≠ pid := by
      cases hown : (w.phase k).own with
      | none => exact ⟨by simpa [hown] using hadapter, by rintro pid ⟨⟩⟩
      | some pid =>
          have hkept : adapter ∈ w.adapters ∧ adapter.pid ≠ pid := by
            simpa [hown, Resumes.kill] using hadapter
          exact ⟨hkept.1, by rintro pid' ⟨⟩; exact hkept.2⟩
    have hjk : adapter.run ≠ k := by
      rintro rfl
      rcases h.adapter adapter hmem.1 with hown | hs
      · exact hmem.2 _ hown rfl
      · rw [hs] at hsucceeded
        cases hsucceeded
    rw [setPhase_of_ne hjk]
    cases (w.phase k).own <;> exact h.adapter adapter hmem.1

theorem Clean.effect (h : Clean w) (heffect : Effect w k a w') : Clean w' := by
  cases heffect with
  | gate hgate hsucceeded hnew hclaiming hnamed =>
      refine h.move (fun hs => ?_) fun pid hown => ?_
      · rw [hs] at hsucceeded
        cases hsucceeded
      · rw [ResumePhase.holds_of_own hown] at hgate
        cases hgate
  | passed hphase hnone => exact h.move (by rw [hphase]; rintro ⟨⟩) (by rw [hphase]; rintro pid ⟨⟩)
  | claim hphase hfree =>
      have hmove : Clean (w.setPhase k .spawning) :=
        h.move (by rw [hphase]; rintro ⟨⟩) (by rw [hphase]; rintro pid ⟨⟩)
      exact ⟨hmove.wrote, hmove.adapter⟩
  | @spawn pid endpoint hphase hfresh =>
      have hmove : Clean (w.setPhase k (.readying pid endpoint)) :=
        h.move (by rw [hphase]; rintro ⟨⟩) (by rw [hphase]; rintro pid ⟨⟩)
      refine ⟨hmove.wrote, fun adapter hadapter => ?_⟩
      rcases List.mem_cons.mp hadapter with rfl | hadapter
      · exact .inl (congrArg ResumePhase.own (setPhase_self _))
      · exact hmove.adapter adapter hadapter
  | ready hown hnew =>
      refine h.move (fun hs => ?_) fun pid hpid => ?_
      · rw [ResumePhase.own_of_succeeded hs] at hown
        cases hown
      · rw [hown] at hpid
        exact .inl (hnew.trans hpid)
  | fail hholds hsucceeded => exact h.fail hsucceeded
  | @write pid endpoint row hphase hpid hrow =>
      have hmove : Clean (w.setPhase k (.consuming pid endpoint)) := h.move (fun _ => rfl) fun _ _ => .inr rfl
      refine ⟨fun j hj => ?_, hmove.adapter⟩
      rcases List.mem_cons.mp hj with rfl | hj
      · exact congrArg ResumePhase.succeeded (setPhase_self _)
      · exact hmove.wrote j hj
  | @consume pid endpoint outcome tombstones hphase =>
      have hmove : Clean (w.setPhase k (.releasing (.ok outcome))) := h.move (fun _ => rfl) fun _ _ => .inr rfl
      exact ⟨hmove.wrote, hmove.adapter⟩
  | @release result hphase =>
      have hmove : Clean (w.setPhase k (.returned result)) :=
        h.move (by rw [hphase]; cases result <;> exact id) (by rw [hphase]; rintro pid ⟨⟩)
      exact ⟨hmove.wrote, hmove.adapter⟩

/-! ### Exclusion -/

/-- The adapter is the one of the run that has the lock, and has no row yet. -/
def Unrecorded (w : Resumes) (adapter : Adapter) : Prop := (w.phase adapter.run).own = some adapter.pid

def Recorded (w : Resumes) (adapter : Adapter) : Prop :=
  ∃ row ∈ w.rows, row.pid = adapter.pid ∧ row.sessionId = some w.sessionId

/-- At most one adapter lives, and a run that is about to spawn one finds none. -/
structure Exclusive (w : Resumes) : Prop where
  names : (w.rows.map ResumeRow.pid).Nodup
  named : ∀ k, (w.phase k).gating = true → w.sessionId ≠ ""
  lock : ∀ k, (w.phase k).holds = true → w.holder = some k
  single : w.adapters.length ≤ 1
  known : ∀ adapter ∈ w.adapters, w.Unrecorded adapter ∨ w.Recorded adapter
  spawning : ∀ k, w.phase k = .spawning → w.adapters = []
  seen : ∀ k seen, w.phase k = .claiming seen → seen ≤ w.wrote.length
  fresh : ∀ k seen, w.phase k = .claiming seen → seen = w.wrote.length →
    ∀ adapter ∈ w.adapters, w.Unrecorded adapter

theorem Exclusive.no_unrecorded (h : Exclusive w) (hfree : w.holder = none) (adapter : Adapter) :
    ¬w.Unrecorded adapter := by
  intro hown
  have hholder := h.lock adapter.run (ResumePhase.holds_of_own hown)
  rw [hfree] at hholder
  cases hholder

theorem Exclusive.eq_of_holds (h : Exclusive w) {j : Nat} (hk : (w.phase k).holds = true)
    (hj : (w.phase j).holds = true) : j = k := by
  have hholder := (h.lock j hj).symm.trans (h.lock k hk)
  exact Option.some.inj hholder

/-- A step that moves a run on within the same hold of the lock. -/
theorem Exclusive.move (h : Exclusive w) {phase : ResumePhase}
    (hholds : phase.holds = true → (w.phase k).holds = true)
    (hown : ∀ adapter ∈ w.adapters, (w.phase k).own = some adapter.pid → phase.own = some adapter.pid)
    (hspawning : phase ≠ .spawning)
    (hnamed : phase.gating = true → (w.phase k).gating = true ∨ w.sessionId ≠ "")
    (hclaiming : ∀ seen, phase = .claiming seen → seen = w.wrote.length ∧
      ∀ adapter ∈ w.adapters, w.Unrecorded adapter) : Exclusive (w.setPhase k phase) := by
  have hunrecorded : ∀ adapter ∈ w.adapters, w.Unrecorded adapter →
      (w.setPhase k phase).Unrecorded adapter := by
    intro adapter hadapter hun
    by_cases hjk : adapter.run = k
    · subst hjk
      exact (congrArg ResumePhase.own (setPhase_self phase)).trans (hown adapter hadapter hun)
    · exact (congrArg ResumePhase.own (setPhase_of_ne hjk phase)).trans hun
  refine ⟨h.names, fun j hj => ?_, fun j hj => ?_, h.single, fun adapter hadapter => ?_, fun j hj => ?_,
    fun j seen hj => ?_, fun j seen hj heq adapter hadapter => hunrecorded adapter hadapter ?_⟩
  · by_cases hjk : j = k
    · subst hjk
      rw [setPhase_self] at hj
      exact (hnamed hj).elim (h.named j) id
    · rw [setPhase_of_ne hjk] at hj
      exact h.named j hj
  · by_cases hjk : j = k
    · subst hjk
      rw [setPhase_self] at hj
      exact h.lock j (hholds hj)
    · rw [setPhase_of_ne hjk] at hj
      exact h.lock j hj
  · exact (h.known adapter hadapter).imp_left (hunrecorded adapter hadapter)
  · by_cases hjk : j = k
    · subst hjk
      rw [setPhase_self] at hj
      exact absurd hj hspawning
    · rw [setPhase_of_ne hjk] at hj
      exact h.spawning j hj
  · by_cases hjk : j = k
    · subst hjk
      rw [setPhase_self] at hj
      exact (hclaiming seen hj).1.le
    · rw [setPhase_of_ne hjk] at hj
      exact h.seen j seen hj
  · by_cases hjk : j = k
    · subst hjk
      rw [setPhase_self] at hj
      exact (hclaiming seen hj).2 adapter hadapter
    · rw [setPhase_of_ne hjk] at hj
      exact h.fresh j seen hj heq adapter hadapter

theorem Exclusive.kill (h : Exclusive w) (pid : Int) : Exclusive (w.kill pid) := by
  have hsub : ∀ adapter ∈ (w.kill pid).adapters, adapter ∈ w.adapters := fun _ => List.mem_of_mem_filter
  refine ⟨h.names, h.named, h.lock, (List.length_filter_le _ _).trans h.single,
    fun adapter hadapter => h.known adapter (hsub adapter hadapter), fun k hk => ?_, h.seen,
    fun k seen hk heq adapter hadapter => h.fresh k seen hk heq adapter (hsub adapter hadapter)⟩
  simp [Resumes.kill, h.spawning k hk]

theorem mem_aliveRowsWithId {adapter : Adapter} (hadapter : adapter ∈ w.adapters)
    (hrow : w.Recorded adapter) (hid : w.sessionId ≠ "") :
    ∃ row ∈ aliveRowsWithId w.rows (w.isPidAlive a) w.sessionId, row.sessionId = w.sessionId := by
  obtain ⟨row, hmem, hpid, hsession⟩ := hrow
  rw [aliveRowsWithId, if_neg hid]
  refine ⟨_, List.mem_map.mpr ⟨row, List.mem_filter.mpr ⟨hmem, ?_⟩, rfl⟩, rfl⟩
  have halive : w.isPidAlive a row.pid = true := by
    rw [hpid, isPidAlive, Bool.or_eq_true]
    exact .inl (List.any_eq_true.mpr ⟨adapter, hadapter, by simp⟩)
  simp [hsession, halive]

/-- The last gate lets a run pass, and meets no collision: no live adapter has a row. -/
theorem not_recorded_of_passed (hid : w.sessionId ≠ "")
    (hnone : alivePidForId w.rows (w.isPidAlive a) w.sessionId = none)
    (hcollision : idCollisionRefusal w.rows (w.isPidAlive a) w.sessionId = none) {adapter : Adapter}
    (hadapter : adapter ∈ w.adapters) : ¬w.Recorded adapter := by
  intro hrow
  obtain ⟨row, hmem, hsession⟩ := mem_aliveRowsWithId (a := a) hadapter hrow hid
  have hfilter : row ∈ (aliveRowsWithId w.rows (w.isPidAlive a) w.sessionId).filter
      fun r => r.sessionId = w.sessionId := List.mem_filter.mpr ⟨hmem, by simpa using hsession⟩
  unfold alivePidForId at hnone
  unfold idCollisionRefusal at hcollision
  unfold detectLiveIdCollision at hnone hcollision
  rw [if_neg hid] at hnone hcollision
  rcases hlist : (aliveRowsWithId w.rows (w.isPidAlive a) w.sessionId).filter
      fun r => r.sessionId = w.sessionId with _ | ⟨first, _ | ⟨second, rest⟩⟩
  · rw [hlist] at hfilter
    cases hfilter
  · rw [hlist] at hnone
    cases hnone
  · rw [hlist] at hcollision
    cases hcollision

theorem Exclusive.claim (h : Exclusive w) (hfree : w.holder = none) (hnone : w.adapters = []) :
    Exclusive { w.setPhase k .spawning with holder := some k } := by
  have hphase : ∀ j seen, (w.setPhase k .spawning).phase j = .claiming seen → w.phase j = .claiming seen := by
    intro j seen hj
    by_cases hjk : j = k
    · subst hjk
      rw [setPhase_self] at hj
      cases hj
    · rwa [setPhase_of_ne hjk] at hj
  refine ⟨h.names, fun j hj => ?_, fun j hj => ?_, h.single, ?_, fun _ _ => hnone,
    fun j seen hj => h.seen j seen (hphase j seen hj), ?_⟩
  · by_cases hjk : j = k
    · subst hjk
      rw [show (_ : Resumes).phase j = _ from setPhase_self .spawning] at hj
      cases hj
    · exact h.named j (by rwa [show (_ : Resumes).phase j = _ from setPhase_of_ne hjk .spawning] at hj)
  · by_cases hjk : j = k
    · exact congrArg some hjk.symm
    · have hholder := h.lock j (by rwa [show (_ : Resumes).phase j = _ from setPhase_of_ne hjk .spawning] at hj)
      rw [hfree] at hholder
      cases hholder
  · intro adapter hadapter
    have hmem : adapter ∈ w.adapters := hadapter
    rw [hnone] at hmem
    cases hmem
  · intro j seen hj heq adapter hadapter
    have hmem : adapter ∈ w.adapters := hadapter
    rw [hnone] at hmem
    cases hmem

theorem Exclusive.spawn (h : Exclusive w) (hphase : w.phase k = .spawning) (pid : Int) (endpoint : String) :
    Exclusive { w.setPhase k (.readying pid endpoint) with adapters := { pid, run := k } :: w.adapters } := by
  have hmove : Exclusive (w.setPhase k (.readying pid endpoint)) :=
    h.move (fun _ => by rw [hphase]; rfl) (by rw [hphase]; rintro _ _ ⟨⟩) (by rintro ⟨⟩) (by rintro ⟨⟩)
      (by rintro seen ⟨⟩)
  have hunrecorded : ((w.setPhase k (.readying pid endpoint)).phase k).own = some pid :=
    congrArg ResumePhase.own (setPhase_self _)
  have hnone : w.adapters = [] := h.spawning k hphase
  refine ⟨hmove.names, hmove.named, hmove.lock, by simp [hnone], fun adapter hadapter => ?_, fun j hj => ?_,
    hmove.seen, fun j seen hj heq adapter hadapter => ?_⟩
  · rw [hnone] at hadapter
    cases List.mem_singleton.mp hadapter
    exact .inl hunrecorded
  · -- the run that is about to spawn has the lock, and so has this one
    have hjk : j = k := hmove.eq_of_holds (by rw [setPhase_self]; rfl)
      (by rw [show (w.setPhase k (.readying pid endpoint)).phase j = _ from hj]; rfl)
    subst hjk
    cases (setPhase_self (w := w) (.readying pid endpoint)).symm.trans hj
  · rw [hnone] at hadapter
    cases List.mem_singleton.mp hadapter
    exact hunrecorded

theorem Exclusive.write (h : Exclusive w) {pid : Int} {endpoint : String} {row : ResumeRow}
    (hphase : w.phase k = .writing pid endpoint) (hpid : row.pid = pid)
    (hrow : row.sessionId = some w.sessionId) :
    Exclusive ((w.writeEntry k row).setPhase k (.consuming pid endpoint)) := by
  have hother : ∀ {j phase}, ((w.writeEntry k row).setPhase k (.consuming pid endpoint)).phase j = phase →
      phase ≠ .consuming pid endpoint → w.phase j = phase := by
    intro j phase hj hne
    by_cases hjk : j = k
    · subst hjk
      exact absurd (hj.symm.trans (setPhase_self _)) hne
    · exact (setPhase_of_ne hjk _).symm.trans hj
  have hrecorded : ∀ adapter, adapter.pid = pid ∨ w.Recorded adapter →
      ((w.writeEntry k row).setPhase k (.consuming pid endpoint)).Recorded adapter := by
    rintro adapter hadapter
    by_cases heq : adapter.pid = pid
    · exact ⟨row, List.mem_cons_self, hpid.trans heq.symm, hrow⟩
    · obtain ⟨row', hmem, hpid', hsession⟩ := hadapter.resolve_left heq
      refine ⟨row', List.mem_cons_of_mem _ (List.mem_filter.mpr ⟨hmem, ?_⟩), hpid', hsession⟩
      rw [hpid', hpid]
      exact decide_eq_true heq
  refine ⟨?_, fun j hj => ?_, fun j hj => ?_, h.single, fun adapter hadapter => ?_, fun j hj => ?_,
    fun j seen hj => ?_, fun j seen hj heq => ?_⟩
  · change (row.pid :: (w.rows.filter (·.pid ≠ row.pid)).map ResumeRow.pid).Nodup
    refine List.nodup_cons.mpr ⟨fun hmem => ?_, ?_⟩
    · obtain ⟨row', hrow', heq⟩ := List.mem_map.mp hmem
      simpa [heq] using (List.mem_filter.mp hrow').2
    · exact h.names.sublist (List.filter_sublist.map _)
  · by_cases hjk : j = k
    · subst hjk
      rw [setPhase_self] at hj
      cases hj
    · rw [setPhase_of_ne hjk] at hj
      exact h.named j hj
  · by_cases hjk : j = k
    · subst hjk
      exact h.lock j (by rw [hphase]; rfl)
    · rw [setPhase_of_ne hjk] at hj
      exact h.lock j hj
  · rcases h.known adapter hadapter with hun | hrec
    · by_cases hjk : adapter.run = k
      · refine .inr (hrecorded adapter (.inl ?_))
        rw [Unrecorded, hjk, hphase] at hun
        exact (Option.some.inj hun).symm
      · exact .inl ((congrArg ResumePhase.own (setPhase_of_ne hjk _)).trans hun)
    · exact .inr (hrecorded adapter (.inr hrec))
  · exact h.spawning j (hother hj (by rintro ⟨⟩))
  · exact (h.seen j seen (hother hj (by rintro ⟨⟩))).trans (Nat.le_succ _)
  · -- the row is newer than what any run has seen
    have hle := h.seen j seen (hother hj (by rintro ⟨⟩))
    change seen = w.wrote.length + 1 at heq
    omega

theorem Exclusive.fail (h : Exclusive w) {e : AcpResumeError} (hholds : (w.phase k).holds = true) :
    Exclusive ((((w.phase k).own.map w.kill).getD w).setPhase k (.releasing (.error e))) := by
  cases hown : (w.phase k).own with
  | none =>
      exact h.move (fun _ => hholds) (fun adapter _ hpid => by rw [hown] at hpid; cases hpid)
        (by rintro ⟨⟩) (by rintro ⟨⟩) (by rintro seen ⟨⟩)
  | some pid =>
      refine (h.kill pid).move (fun _ => hholds) (fun adapter hadapter hpid => ?_) (by rintro ⟨⟩)
        (by rintro ⟨⟩) (by rintro seen ⟨⟩)
      cases hown.symm.trans hpid
      simpa using (List.mem_filter.mp hadapter).2

theorem Exclusive.effect (h : Exclusive w) (hgates : w.gatesFresh (.advance k a) = true)
    (heffect : Effect w k a w') : Exclusive w' := by
  cases heffect with
  | @gate phase hgate hsucceeded hnew hclaiming hnamed =>
      refine h.move (fun hholds => ?_) (fun adapter _ hown => ?_) (fun hspawning => ?_) hnamed
        fun seen hseen => absurd hseen (hclaiming seen)
      · rw [hnew] at hholds
        cases hholds
      · rw [ResumePhase.holds_of_own hown] at hgate
        cases hgate
      · rw [hspawning] at hnew
        cases hnew
  | passed hphase hnone =>
      have hid : w.sessionId ≠ "" := h.named k (by rw [hphase]; rfl)
      refine h.move (by rintro ⟨⟩) (by rw [hphase]; rintro _ _ ⟨⟩) (by rintro ⟨⟩) (by rintro ⟨⟩) ?_
      rintro seen ⟨⟩
      refine ⟨rfl, fun adapter hadapter => ?_⟩
      simp only [gatesFresh, hphase, Bool.or_eq_true, Option.isNone_iff_eq_none, List.isEmpty_iff] at hgates
      rcases hgates with hcollision | hempty
      · exact (h.known adapter hadapter).resolve_right (not_recorded_of_passed hid hnone hcollision hadapter)
      · rw [hempty] at hadapter
        cases hadapter
  | @claim seen hphase hfree =>
      refine h.claim hfree ?_
      simp only [gatesFresh, hphase, hfree, Option.isSome_none, Bool.false_or, Bool.or_eq_true,
        decide_eq_true_eq, List.isEmpty_iff] at hgates
      rcases hgates with hseen | hempty
      · -- the gates were true when they were passed, and no row was written since
        refine List.eq_nil_iff_forall_not_mem.mpr fun adapter hadapter => ?_
        exact h.no_unrecorded hfree adapter (h.fresh k seen hphase hseen adapter hadapter)
      · exact hempty
  | spawn hphase hfresh => exact h.spawn hphase _ _
  | ready hown hnew =>
      refine h.move (fun _ => ResumePhase.holds_of_own hown) (fun adapter _ hpid => ?_) ?_ ?_ ?_
      · rw [hown] at hpid
        exact hnew.trans hpid
      · rintro rfl
        cases hnew
      · rintro hgating
        have hholds := ResumePhase.holds_of_own hnew
        rename_i phase _
        cases phase <;> cases hgating <;> cases hholds
      · rintro seen rfl
        cases hnew
  | fail hholds hsucceeded => exact h.fail hholds
  | write hphase hpid hrow => exact h.write hphase hpid hrow
  | @consume pid endpoint outcome tombstones hphase =>
      have hmove : Exclusive (w.setPhase k (.releasing (.ok outcome))) :=
        h.move (fun _ => by rw [hphase]; rfl) (by rw [hphase]; rintro _ _ ⟨⟩) (by rintro ⟨⟩) (by rintro ⟨⟩)
          (by rintro seen ⟨⟩)
      exact { hmove with }
  | @release result hphase =>
      have hmove : Exclusive (w.setPhase k (.returned result)) :=
        h.move (by rintro ⟨⟩) (by rw [hphase]; rintro _ _ ⟨⟩) (by rintro ⟨⟩) (by rintro ⟨⟩)
          (by rintro seen ⟨⟩)
      refine { hmove with lock := fun j hj => ?_ }
      -- no other run had the lock
      have hjk : j ≠ k := by
        rintro rfl
        cases (congrArg ResumePhase.holds (setPhase_self (.returned result))).symm.trans hj
      have hheld := (congrArg ResumePhase.holds (setPhase_of_ne hjk (.returned result))).symm.trans hj
      exact absurd (h.eq_of_holds (by rw [hphase]; rfl) hheld) hjk

/-! ### Runs -/

theorem advance?_of_step? {k : Nat} {a : Answers} (h : w.step? (.advance k a) = some w') :
    Effect w k a w' := by
  obtain ⟨p, -, h⟩ := Option.bind_eq_some_iff.mp h
  exact effect_of_advance? h

theorem Clean.step? (h : Clean w) {step : Step} (hstep : w.step? step = some w') : Clean w' := by
  cases step with
  | call p =>
      cases hstep
      exact ⟨h.wrote, h.adapter⟩
  | advance k a => exact h.effect (advance?_of_step? hstep)
  | adapterDies pid =>
      cases hstep
      exact h.kill pid

theorem Exclusive.step? (h : Exclusive w) {step : Step} (hgates : w.gatesFresh step = true)
    (hstep : w.step? step = some w') : Exclusive w' := by
  cases step with
  | call p =>
      cases hstep
      exact { h with }
  | advance k a => exact h.effect hgates (advance?_of_step? hstep)
  | adapterDies pid =>
      cases hstep
      exact h.kill pid

/-- A step of a run leaves the rows as they are, or is on record. -/
theorem Effect.rows (h : Effect w k a w') : w'.rows = w.rows ∨ k ∈ w'.wrote := by
  cases h with
  | write => exact .inr List.mem_cons_self
  | fail => exact .inl (by cases (w.phase k).own <;> rfl)
  | _ => exact .inl rfl

theorem wrote_subset {step : Step} (hstep : w.step? step = some w') : w.wrote ⊆ w'.wrote := by
  cases step with
  | call p =>
      cases hstep
      exact List.Subset.refl _
  | adapterDies pid =>
      cases hstep
      exact List.Subset.refl _
  | advance k a =>
      cases advance?_of_step? hstep with
      | write => exact List.subset_cons_self _ _
      | fail => cases (w.phase k).own <;> exact List.Subset.refl _
      | _ => exact List.Subset.refl _

theorem wrote_subset_of_run? {steps : List Step} (hrun : w.run? steps = some w') : w.wrote ⊆ w'.wrote := by
  have hloop : Ensures (w.run? steps) fun w' => w.wrote ⊆ w'.wrote :=
    .foldlM (List.Subset.refl _) fun _ _ _ h _ hstep => List.Subset.trans h (wrote_subset hstep)
  exact hloop w' hrun

theorem Exclusive.liveRows (h : Exclusive w) : w.liveRows.length ≤ 1 := by
  have hpids : (w.liveRows.map ResumeRow.pid).Nodup := h.names.sublist (List.filter_sublist.map _)
  have hsub : w.liveRows.map ResumeRow.pid ⊆ w.adapters.map Adapter.pid := by
    intro pid hpid
    obtain ⟨row, hrow, rfl⟩ := List.mem_map.mp hpid
    have hlive := (List.mem_filter.mp hrow).2
    rw [Bool.and_eq_true, List.any_eq_true] at hlive
    obtain ⟨adapter, hadapter, heq⟩ := hlive.2
    exact List.mem_map.mpr ⟨adapter, hadapter, of_decide_eq_true heq⟩
  have hlen := (List.subperm_of_subset hpids hsub).length_le
  simp only [List.length_map] at hlen
  exact hlen.trans h.single

/-- Over every interleaving of runs for one session, from a registry without a live adapter:
while the gates of a run still tell the truth when it takes the lock, there are never two live
adapters, nor two live rows; and a run that fails has changed no row and left no adapter. -/
theorem run?_exclusive (sessionId : String) (rows tombstones : List ResumeRow) (steps : List Step)
    (w : Resumes) (hnames : (rows.map ResumeRow.pid).Nodup)
    (hrun : run? { sessionId, rows, tombstones } steps = some w) :
    (Meets step? gatesFresh { sessionId, rows, tombstones } steps = true →
      w.adapters.length ≤ 1 ∧ w.liveRows.length ≤ 1) ∧
    ∀ k e, w.phase k = .returned (.error e) → (∀ adapter ∈ w.adapters, adapter.run ≠ k) ∧
      ∀ pre a post u u', steps = pre ++ .advance k a :: post →
        run? { sessionId, rows, tombstones } pre = some u → u.step? (.advance k a) = some u' →
          u'.rows = u.rows := by
  have hclean : Clean w := by
    have hloop : Ensures (run? { sessionId, rows, tombstones } steps) Clean :=
      .foldlM ⟨by simp, by simp⟩ fun _ _ _ h _ hstep => h.step? hstep
    exact hloop w hrun
  refine ⟨fun hmeets => ?_, fun k e hfailed => ⟨?_, ?_⟩⟩
  · have hinit : Exclusive { sessionId, rows, tombstones } :=
      ⟨hnames, by rintro k ⟨⟩, by rintro k ⟨⟩, by simp, by simp, by rintro k ⟨⟩, by rintro k seen ⟨⟩,
        by rintro k seen ⟨⟩⟩
    have h : Exclusive w := Meets.invariant (fun h => h.step?) hinit hmeets hrun
    exact ⟨h.single, h.liveRows⟩
  · rintro adapter hadapter rfl
    have hrun := hclean.adapter adapter hadapter
    rw [hfailed] at hrun
    simp [ResumePhase.own, ResumePhase.succeeded] at hrun
  · intro pre a post u u' hsteps hpre hstep
    refine (advance?_of_step? hstep).rows.resolve_right fun hwrote => ?_
    rw [hsteps, run?, List.foldlM_append] at hrun
    obtain ⟨u₀, hu₀, hrest⟩ := Option.bind_eq_some_iff.mp hrun
    cases hpre.symm.trans hu₀
    obtain ⟨u₁, hu₁, hrest⟩ := Option.bind_eq_some_iff.mp hrest
    cases hstep.symm.trans hu₁
    have hsucceeded := hclean.wrote k (wrote_subset_of_run? hrest hwrote)
    rw [hfailed] at hsucceeded
    cases hsucceeded

def params : AcpResumeParams :=
  { name := "w", harness := .opencode, cwd := none, hasJsonl := false, currentPid := none
    currentEndpoint := none }

def smooth (pid : Int) : Answers := { spawned := .ok pid, established := "s" }

def gates (k : Nat) : List Step := List.replicate 4 (Step.advance k (smooth 100))

def revival (k : Nat) (pid : Int) : List Step := List.replicate 7 (Step.advance k (smooth pid))

def oneByOne : List Step :=
  [Step.call params, Step.call params] ++ gates 0 ++ revival 0 100 ++ gates 1

theorem run?_exclusive_oneByOne : ∃ w, run? { sessionId := "s", rows := [] } oneByOne = some w ∧
    w.phase 1 = .returned (.error (.alreadyAliveElsewhere "w" 100)) ∧
    w.adapters.length ≤ 1 ∧ w.liveRows.length ≤ 1 := by
  refine ⟨_, rfl, rfl, ?_⟩
  exact (run?_exclusive "s" [] [] oneByOne _ .nil rfl).1 (by decide)

def bothGated : List Step :=
  [Step.call params, Step.call params] ++ gates 0 ++ gates 1 ++ revival 0 100 ++ revival 1 101

theorem bothGated_not_exclusive : ¬ ∀ (steps : List Step) (w : Resumes),
    run? { sessionId := "s", rows := [] } steps = some w → w.adapters.length ≤ 1 := by
  intro h
  have hlen := h bothGated _ rfl
  revert hlen
  decide

end Resumes

end QuorumDispatch.Acp
