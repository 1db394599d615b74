import QuorumDispatch.Kill.Reap
import QuorumDispatch.Registry.NameFence
import QuorumDispatch.Sessions.Rows
import QuorumDispatch.Timefmt.Lenient

/-!
The arithmetic that tells a process from a later one with its pid. A start that a probe returns is
compared with a recorded one, up to a slack. Each function stands here once, for three ways of
comparing: as the release build does, as a build does that stops on an overflow, and over the
integers.
-/

namespace QuorumDispatch.Kill

open Lib
open Sessions (SessionStatus)
open Timefmt (pieces)

/-! ### Comparisons -/

/-- How starts are compared; `none` is an overflow. -/
structure Comparing where
  /-- `start > recorded + START_TIME_SLACK_MS`. -/
  late : Int64 → Int64 → Option Bool
  /-- `(now - recorded).abs() > slack`. -/
  moved : Int64 → Int64 → Int64 → Option Bool

namespace Comparing

def wrapping : Comparing where
  late start recorded := some (recorded + startTimeSlackMs < start)
  moved slack now recorded := some (slack < (now - recorded).abs)

def checked : Comparing where
  late start recorded := do
    let sum ← i64 (recorded.toInt + startTimeSlackMs.toInt)
    return sum < start.toInt
  moved slack now recorded := do
    let difference ← i64 (now.toInt - recorded.toInt)
    let distance ← i64 |difference|
    return slack.toInt < distance

def exact : Comparing where
  late start recorded := some (recorded.toInt + startTimeSlackMs.toInt < start.toInt)
  moved slack now recorded := some (slack.toInt < |now.toInt - recorded.toInt|)

end Comparing

/-! ### The five functions -/

section Functions

variable (c : Comparing)

def startedOursBy (procStartMs rowStartedAtMs : Option Int64) : Option Bool :=
  match procStartMs, rowStartedAtMs with
  | some p, some r => (c.late p r).map (!·)
  | _, _ => some false

def pidIsForeignBy (alive : Bool) (cmdline : Option String) (sessionBin : String)
    (procStartMs rowStartedAtMs : Option Int64) : Option Bool := do
  let startedOurs ← startedOursBy c procStartMs rowStartedAtMs
  return alive && !startedOurs && cmdline.any fun cmd => !cmdlineIsSessionProgram cmd sessionBin

def sweepRootAllowedBy (cmdline : Option String) (sessionBin : String)
    (procStartMs rowStartedAtMs : Option Int64) : Option Bool := do
  let veto ← (match procStartMs, rowStartedAtMs with
    | some p, some r => c.late p r
    | _, _ => some false)
  if veto then return false
  else
    let startedOurs ← startedOursBy c procStartMs rowStartedAtMs
    return cmdlineOurs cmdline sessionBin || startedOurs

def claimNumber (serde : SerdeJson) (existingPayload : Bytes) (key : String) : Option Int64 :=
  (serde.fromSlice existingPayload).bind fun v => (v.get key).bind Json.asI64

def claimIsStaleBy (serde : SerdeJson) (existingPayload : Bytes) (isAlive : Int64 → Bool)
    (procStart : Int64 → Option Int64) : Option Bool :=
  match claimNumber serde existingPayload "pid" with
  | some pid =>
      if !isAlive pid then some true
      else
        match claimNumber serde existingPayload "start" with
        | some claimedStart =>
            match procStart pid with
            | some cur => c.late cur claimedStart
            | none => some false
        | none => some false
  | none => some false

inductive ProcLiveness where
  | runningOrDisk
  | sleeping
  | zombie
  | gone
  | unknown
deriving DecidableEq, Repr

inductive LifecycleState where
  | aliveSilentValid
  | aliveWorking
  | exitedClean
  | exitedSignal
  | gone
  | notOurs
  | aliveReady
  | aliveWaiting
  | stuck
deriving DecidableEq, Repr

def LifecycleState.isAlive : LifecycleState → Bool
  | aliveSilentValid | aliveWorking | aliveReady | aliveWaiting | stuck => true
  | _ => false

structure ProcKey where
  pid : Int32
  startMs : Int64
deriving DecidableEq, Repr

structure ProcProbe where
  startMs : Int32 → Option Int64
  liveness : Int32 → ProcLiveness

def ProcLiveness.state : ProcLiveness → LifecycleState
  | runningOrDisk => .aliveWorking
  | sleeping | unknown => .aliveSilentValid
  | zombie => .exitedSignal
  | gone => .gone

/-- A start that can not be read does not disprove the identity. -/
def classifyBy (probe : ProcProbe) (key : ProcKey) : Option LifecycleState :=
  match probe.liveness key.pid with
  | .gone => some .gone
  | .unknown => some .aliveSilentValid
  | liveness =>
      match probe.startMs key.pid with
      | some nowStart => do
          let moved ← c.moved startTimeSlackMs nowStart key.startMs
          return if moved then .notOurs else liveness.state
      | none => some liveness.state

def startMatchesBy (now stamp : Int64) : Option Bool :=
  (c.moved treeKillStartSlackMs now stamp).map (!·)

end Functions

/-! ### Pids -/

def shownLive (status : SessionStatus) : Bool :=
  status = .idle || status = .busy || status = .shell

def gatedLsStatus (status : SessionStatus) (pid recordedStartMs : Option Int64)
    (classify : ProcKey → LifecycleState) : SessionStatus :=
  if shownLive status then
    match pid, recordedStartMs with
    | some pid, some start => if (classify ⟨pid.toInt32, start⟩).isAlive then status else .cold
    | _, _ => status
  else status

def exactLsStatus (status : SessionStatus) (pid recordedStartMs : Option Int64)
    (process : Int → Int64 → LifecycleState) : SessionStatus :=
  if shownLive status then
    match pid, recordedStartMs with
    | some pid, some start => if (process pid.toInt start).isAlive then status else .cold
    | _, _ => status
  else status

/-! ### Elapsed times -/

/-- `[[dd-]hh:]mm:ss`; every operation is checked. -/
def parseEtimeMs (text : List Char) : Option Int := do
  let t := trim text
  if t = [] then none
  else
    let (days, rest) ← (match Provider.splitOnce ['-'] t with
      | some (d, r) => (parseI64 d).map fun days => (days, r)
      | none => some (0, t))
    let (h, m, s) ← (match pieces ':' rest with
      | [h, m, s] => do return (← parseI64 h, ← parseI64 m, ← parseI64 s)
      | [m, s] => do return (0, ← parseI64 m, ← parseI64 s)
      | _ => none)
    let hours ← i64 ((← i64 (days * 24)) + h)
    let minutes ← i64 ((← i64 (hours * 60)) + m)
    let seconds ← i64 ((← i64 (minutes * 60)) + s)
    i64 (seconds * 1000)

def startFromEtime (nowMs : Int64) (etime : List Char) : Option Int64 := do
  let elapsed ← parseEtimeMs etime
  if elapsed < 0 then none
  else
    let start ← i64 (nowMs.toInt - elapsed)
    if start ≤ 0 then none else some (.ofInt start)

/-! ### When a comparison is exact -/

/-- No overflow, and the verdict over the integers, in both builds. -/
def Exactly {α : Type} (f : Comparing → Option α) : Prop :=
  f .checked = f .exact ∧ f .wrapping = f .exact

def SumFits (recorded : Int64) : Prop := recorded.toInt + startTimeSlackMs.toInt < 2 ^ 63

def DistanceFits (now recorded : Int64) : Prop := |now.toInt - recorded.toInt| < 2 ^ 63

theorem late_exactly_iff {start recorded : Int64} :
    Exactly (fun c => c.late start recorded) ↔ SumFits recorded := by
  have hslack : startTimeSlackMs.toInt = 120000 := by decide
  have hlow := recorded.le_toInt
  by_cases hfits : SumFits recorded
  · have hrange : InI64 (recorded.toInt + startTimeSlackMs.toInt) := by
      rw [InI64]
      exact ⟨by omega, hfits⟩
    have hsum : (recorded + startTimeSlackMs).toInt = recorded.toInt + startTimeSlackMs.toInt := by
      rw [Int64.toInt_add]
      exact Int.bmod_eq_of_le (by omega) (by rw [SumFits] at hfits; omega)
    refine iff_of_true ⟨?_, ?_⟩ hfits
    · simp [Comparing.checked, Comparing.exact, i64_of_inI64 hrange]
    · simp only [Comparing.wrapping, Comparing.exact, Int64.lt_iff_toInt_lt, hsum]
  · refine iff_of_false ?_ hfits
    rintro ⟨hchecked, -⟩
    have hnone : i64 (recorded.toInt + startTimeSlackMs.toInt) = none :=
      if_neg fun h => hfits h.2
    simp [Comparing.checked, Comparing.exact, hnone] at hchecked

theorem toInt_abs {x : Int64} (h : x.toInt ≠ -2 ^ 63) : x.abs.toInt = |x.toInt| := by
  have hmin : x.toBitVec ≠ BitVec.intMin 64 := by
    intro hx
    apply h
    rw [← Int64.toInt_toBitVec, hx]
    decide
  rw [← Int64.toInt_toBitVec, ← Int64.toInt_toBitVec x, Int.abs_eq_natAbs]
  exact BitVec.toInt_abs_eq_natAbs_of_ne_intMin hmin

theorem moved_exactly_iff {slack now recorded : Int64} :
    Exactly (fun c => c.moved slack now recorded) ↔ DistanceFits now recorded := by
  by_cases hfits : DistanceFits now recorded
  · obtain ⟨hlow, hhigh⟩ := abs_lt.mp hfits
    have hdifference : InI64 (now.toInt - recorded.toInt) := ⟨hlow.le, hhigh⟩
    have hdistance : InI64 |now.toInt - recorded.toInt| :=
      ⟨le_trans (by decide) (abs_nonneg _), hfits⟩
    have hsub : (now - recorded).toInt = now.toInt - recorded.toInt := by
      rw [Int64.toInt_sub]
      exact Int.bmod_eq_of_le (by omega) (by omega)
    have habs : (now - recorded).abs.toInt = |now.toInt - recorded.toInt| := by
      rw [toInt_abs (by rw [hsub]; exact hlow.ne'), hsub]
    refine iff_of_true ⟨?_, ?_⟩ hfits
    · simp [Comparing.checked, Comparing.exact, i64_of_inI64 hdifference, i64_of_inI64 hdistance]
    · simp only [Comparing.wrapping, Comparing.exact, Int64.lt_iff_toInt_lt, habs]
  · refine iff_of_false ?_ hfits
    rintro ⟨hchecked, -⟩
    have hnone : i64 |now.toInt - recorded.toInt| = none := if_neg fun h => hfits h.2
    by_cases hdifference : InI64 (now.toInt - recorded.toInt)
    · simp [Comparing.checked, Comparing.exact, i64_of_inI64 hdifference, hnone] at hchecked
    · have hnone' : i64 (now.toInt - recorded.toInt) = none := if_neg hdifference
      simp [Comparing.checked, Comparing.exact, hnone'] at hchecked

/-- A comparison: over the integers there is a verdict, and elsewhere one only if it is exact. -/
structure Compares (f : Comparing → Option Bool) : Prop where
  total : (f .exact).isSome = true
  sound : (f .checked).isSome = true → Exactly f

theorem compares_late (start recorded : Int64) : Compares fun c => c.late start recorded where
  total := rfl
  sound h := by
    rw [late_exactly_iff]
    by_contra hfits
    have hnone : i64 (recorded.toInt + startTimeSlackMs.toInt) = none :=
      if_neg fun hrange => hfits hrange.2
    simp [Comparing.checked, hnone] at h

theorem compares_moved (slack now recorded : Int64) :
    Compares fun c => c.moved slack now recorded where
  total := rfl
  sound h := by
    rw [moved_exactly_iff]
    by_contra hfits
    have hnone : i64 |now.toInt - recorded.toInt| = none := if_neg fun hrange => hfits hrange.2
    cases hdifference : i64 (now.toInt - recorded.toInt) with
    | none => simp [Comparing.checked, hdifference] at h
    | some d =>
        obtain rfl := (i64_eq_some.mp hdifference).2
        simp [Comparing.checked, hdifference, hnone] at h

theorem exactly_of_const {α : Type} {f : Comparing → Option α} {x : Option α} (h : ∀ c, f c = x) :
    Exactly f :=
  ⟨(h _).trans (h _).symm, (h _).trans (h _).symm⟩

theorem Compares.map_exactly_iff {α : Type} {f : Comparing → Option Bool} (h : Compares f)
    (g : Bool → α) : Exactly (fun c => (f c).map g) ↔ Exactly f := by
  constructor
  · rintro ⟨hchecked, -⟩
    apply h.sound
    have hsome : ((f .checked).map g).isSome = ((f .exact).map g).isSome :=
      congrArg Option.isSome hchecked
    rwa [Option.isSome_map, Option.isSome_map, h.total] at hsome
  · rintro ⟨hchecked, hwrapping⟩
    exact ⟨congrArg (Option.map g) hchecked, congrArg (Option.map g) hwrapping⟩

/-! ### The functions -/

section Functions

variable {alive : Bool} {cmdline : Option String} {sessionBin : String}
  {procStartMs rowStartedAtMs : Option Int64}

theorem pidIsForeign_exactly_iff :
    Exactly (fun c => pidIsForeignBy c alive cmdline sessionBin procStartMs rowStartedAtMs) ↔
      ∀ start recorded, procStartMs = some start → rowStartedAtMs = some recorded →
        SumFits recorded := by
  cases procStartMs with
  | none => exact iff_of_true ⟨rfl, rfl⟩ nofun
  | some start =>
      cases rowStartedAtMs with
      | none => exact iff_of_true ⟨rfl, rfl⟩ fun _ _ _ h => nomatch h
      | some recorded =>
          have hmap : ∀ c : Comparing, pidIsForeignBy c alive cmdline sessionBin (some start)
              (some recorded) = (c.late start recorded).map fun late =>
                alive && !!late && cmdline.any fun cmd => !cmdlineIsSessionProgram cmd sessionBin := by
            intro c
            rw [pidIsForeignBy, startedOursBy]
            cases c.late start recorded <;> rfl
          simp only [hmap]
          rw [(compares_late start recorded).map_exactly_iff, late_exactly_iff]
          exact ⟨fun h _ _ _ hr => Option.some.inj hr ▸ h, fun h => h start recorded rfl rfl⟩

theorem sweepRootAllowed_exactly_iff :
    Exactly (fun c => sweepRootAllowedBy c cmdline sessionBin procStartMs rowStartedAtMs) ↔
      ∀ start recorded, procStartMs = some start → rowStartedAtMs = some recorded →
        SumFits recorded := by
  cases procStartMs with
  | none => exact iff_of_true ⟨rfl, rfl⟩ nofun
  | some start =>
      cases rowStartedAtMs with
      | none => exact iff_of_true ⟨rfl, rfl⟩ fun _ _ _ h => nomatch h
      | some recorded =>
          have hmap : ∀ c : Comparing, sweepRootAllowedBy c cmdline sessionBin (some start)
              (some recorded) = (c.late start recorded).map fun late =>
                if late then false else cmdlineOurs cmdline sessionBin || !late := by
            intro c
            rw [sweepRootAllowedBy, startedOursBy]
            cases hlate : c.late start recorded with
            | none => rfl
            | some late => cases late <;> rfl
          simp only [hmap]
          rw [(compares_late start recorded).map_exactly_iff, late_exactly_iff]
          exact ⟨fun h _ _ _ hr => Option.some.inj hr ▸ h, fun h => h start recorded rfl rfl⟩

theorem claimIsStale_exactly_iff {serde : SerdeJson} {payload : Bytes} {isAlive : Int64 → Bool}
    {procStart : Int64 → Option Int64} :
    Exactly (fun c => claimIsStaleBy c serde payload isAlive procStart) ↔
      ∀ pid claimed cur, claimNumber serde payload "pid" = some pid → isAlive pid = true →
        claimNumber serde payload "start" = some claimed → procStart pid = some cur →
          SumFits claimed := by
  cases hpid : claimNumber serde payload "pid" with
  | none => exact iff_of_true (exactly_of_const fun c => by rw [claimIsStaleBy, hpid]) nofun
  | some pid =>
      cases halive : isAlive pid with
      | false =>
          refine iff_of_true (@exactly_of_const _ _ (some true) fun c => ?_) fun _ _ _ h h' => ?_
          · rw [claimIsStaleBy, hpid]
            simp only [halive, Bool.not_false, if_true]
          · rw [← Option.some.inj h, halive] at h'
            cases h'
      | true =>
          have halive' : ∀ c : Comparing, claimIsStaleBy c serde payload isAlive procStart =
              match claimNumber serde payload "start" with
              | some claimedStart =>
                  match procStart pid with
                  | some cur => c.late cur claimedStart
                  | none => some false
              | none => some false := by
            intro c
            rw [claimIsStaleBy, hpid]
            simp only [halive, Bool.not_true, Bool.false_eq_true, if_false]
          simp only [halive']
          cases hstart : claimNumber serde payload "start" with
          | none => exact iff_of_true ⟨rfl, rfl⟩ fun _ _ _ _ _ h => nomatch h
          | some claimed =>
              cases hcur : procStart pid with
              | none =>
                  refine iff_of_true ⟨rfl, rfl⟩ fun _ _ _ h _ _ h' => ?_
                  rw [← Option.some.inj h, hcur] at h'
                  cases h'
              | some cur =>
                  rw [late_exactly_iff]
                  exact ⟨fun h _ _ _ _ _ hs _ => Option.some.inj hs ▸ h,
                    fun h => h pid claimed cur rfl halive rfl hcur⟩

theorem classify_exactly_iff {probe : ProcProbe} {key : ProcKey} :
    Exactly (fun c => classifyBy c probe key) ↔
      ∀ now, probe.liveness key.pid ≠ .gone → probe.liveness key.pid ≠ .unknown →
        probe.startMs key.pid = some now → DistanceFits now key.startMs := by
  have hpresent : ∀ liveness : ProcLiveness, probe.liveness key.pid = liveness →
      liveness ≠ .gone → liveness ≠ .unknown → ∀ c : Comparing, classifyBy c probe key =
        match probe.startMs key.pid with
        | some nowStart => (c.moved startTimeSlackMs nowStart key.startMs).map fun moved =>
            if moved then .notOurs else liveness.state
        | none => some liveness.state := by
    intro liveness hliveness hgone hunknown c
    rw [classifyBy, hliveness]
    cases liveness with
    | gone => exact absurd rfl hgone
    | unknown => exact absurd rfl hunknown
    | _ =>
        cases probe.startMs key.pid with
        | none => rfl
        | some now =>
            dsimp only
            cases c.moved startTimeSlackMs now key.startMs <;> rfl
  by_cases hgone : probe.liveness key.pid = .gone
  · refine iff_of_true ⟨?_, ?_⟩ fun _ h => absurd hgone h
    · simp only [classifyBy, hgone]
    · simp only [classifyBy, hgone]
  by_cases hunknown : probe.liveness key.pid = .unknown
  · refine iff_of_true ⟨?_, ?_⟩ fun _ _ h => absurd hunknown h
    · simp only [classifyBy, hunknown]
    · simp only [classifyBy, hunknown]
  simp only [hpresent _ rfl hgone hunknown]
  cases hnow : probe.startMs key.pid with
  | none => exact iff_of_true ⟨rfl, rfl⟩ fun _ _ _ h => nomatch h
  | some now =>
      dsimp only
      rw [(compares_moved _ now key.startMs).map_exactly_iff, moved_exactly_iff]
      exact ⟨fun h _ _ _ hn => Option.some.inj hn ▸ h, fun h => h now hgone hunknown rfl⟩

theorem startMatches_exactly_iff {now stamp : Int64} :
    Exactly (fun c => startMatchesBy c now stamp) ↔ DistanceFits now stamp :=
  ((compares_moved _ now stamp).map_exactly_iff _).trans moved_exactly_iff

end Functions

/-! ### The release build -/

theorem not_late (sum start : Int64) : (!decide (sum < start)) = decide (start ≤ sum) := by
  rw [← decide_not]
  simp only [Int64.not_lt]

theorem startedOursBy_wrapping (procStartMs rowStartedAtMs : Option Int64) :
    startedOursBy .wrapping procStartMs rowStartedAtMs =
      some (startedOurs procStartMs rowStartedAtMs) := by
  cases procStartMs with
  | none => rfl
  | some p =>
      cases rowStartedAtMs with
      | none => rfl
      | some r => exact congrArg some (not_late _ _)

theorem pidIsForeignBy_wrapping (alive : Bool) (cmdline : Option String) (sessionBin : String)
    (procStartMs rowStartedAtMs : Option Int64) :
    pidIsForeignBy .wrapping alive cmdline sessionBin procStartMs rowStartedAtMs =
      some (pidIsForeign alive cmdline sessionBin procStartMs rowStartedAtMs) := by
  rw [pidIsForeignBy, startedOursBy_wrapping]
  rfl

theorem sweepRootAllowedBy_wrapping (cmdline : Option String) (sessionBin : String)
    (procStartMs rowStartedAtMs : Option Int64) :
    sweepRootAllowedBy .wrapping cmdline sessionBin procStartMs rowStartedAtMs =
      some (sweepRootAllowed cmdline sessionBin procStartMs rowStartedAtMs) := by
  unfold sweepRootAllowedBy
  rw [startedOursBy_wrapping]
  cases procStartMs with
  | none => rfl
  | some p =>
      cases rowStartedAtMs with
      | none => rfl
      | some r =>
          unfold sweepRootAllowed
          change (if decide (r + startTimeSlackMs < p) = true then some false else _) =
            some (if r + startTimeSlackMs < p then false else _)
          by_cases hlate : r + startTimeSlackMs < p
          · rw [if_pos (decide_eq_true hlate), if_pos hlate]
          · rw [if_neg (by simpa using hlate), if_neg hlate]
            rfl

theorem claimIsStaleBy_wrapping (serde : SerdeJson) (payload : Bytes) (isAlive : Int64 → Bool)
    (procStart : Int64 → Option Int64) :
    claimIsStaleBy .wrapping serde payload isAlive procStart =
      some (Registry.NameFence.claimIsStale serde payload isAlive procStart) := by
  rw [claimIsStaleBy, Registry.NameFence.claimIsStale]
  change (match claimNumber serde payload "pid" with | some pid => _ | none => _) =
    some (match claimNumber serde payload "pid" with | some pid => _ | none => _)
  cases claimNumber serde payload "pid" with
  | none => rfl
  | some pid =>
      dsimp only
      cases isAlive pid with
      | false => rfl
      | true =>
          change (match claimNumber serde payload "start" with | some s => _ | none => _) =
            some (match claimNumber serde payload "start" with | some s => _ | none => _)
          cases claimNumber serde payload "start" with
          | none => rfl
          | some claimed =>
              dsimp only
              cases procStart pid with
              | none => rfl
              | some cur => rfl

/-! ### The gate of the list -/

def PidFits (pid : Int64) : Prop := -2 ^ 31 ≤ pid.toInt ∧ pid.toInt < 2 ^ 31

theorem toInt_toInt32_iff {pid : Int64} : pid.toInt32.toInt = pid.toInt ↔ PidFits pid := by
  constructor
  · intro h
    have hlow := pid.toInt32.le_toInt
    have hhigh := pid.toInt32.toInt_lt
    rw [h] at hlow hhigh
    exact ⟨hlow, hhigh⟩
  · rintro ⟨hlow, hhigh⟩
    rw [Int64.toInt_toInt32]
    exact Int.bmod_eq_of_le (by omega) (by omega)

theorem gatedLsStatus_exact_iff {status : SessionStatus} {pid recordedStartMs : Option Int64} :
    (∀ process : Int → Int64 → LifecycleState,
      gatedLsStatus status pid recordedStartMs (fun key => process key.pid.toInt key.startMs) =
        exactLsStatus status pid recordedStartMs process) ↔
      ∀ p s, shownLive status = true → pid = some p → recordedStartMs = some s → PidFits p := by
  constructor
  · rintro h p s hlive rfl rfl
    rw [← toInt_toInt32_iff]
    by_contra hne
    -- the recorded process alone is there
    have hverdict := h fun q _ => if q = p.toInt then .aliveWorking else .gone
    simp only [gatedLsStatus, exactLsStatus, hlive, if_true, if_neg hne, LifecycleState.isAlive,
      Bool.false_eq_true, if_false] at hverdict
    rw [← hverdict] at hlive
    cases hlive
  · intro h process
    unfold gatedLsStatus exactLsStatus
    by_cases hlive : shownLive status = true
    · rw [if_pos hlive, if_pos hlive]
      cases pid with
      | none => rfl
      | some p =>
          cases recordedStartMs with
          | none => rfl
          | some s =>
              change (if (process p.toInt32.toInt s).isAlive = true then status else .cold) = _
              rw [toInt_toInt32_iff.mpr (h p s hlive rfl rfl)]
    · rw [if_neg hlive, if_neg hlive]

/-! ### Starts that probes return -/

theorem startFromEtime_range {nowMs start : Int64} {etime : List Char}
    (h : startFromEtime nowMs etime = some start) : 0 < start.toInt ∧ start.toInt ≤ nowMs.toInt := by
  unfold startFromEtime at h
  obtain ⟨elapsed, -, h⟩ := Option.bind_eq_some_iff.mp h
  split_ifs at h with hneg
  obtain ⟨n, hn, h⟩ := Option.bind_eq_some_iff.mp h
  obtain ⟨hrange, rfl⟩ := i64_eq_some.mp hn
  split_ifs at h with hpast
  obtain rfl := Option.some.inj h
  rw [Int64.toInt_ofInt_of_le hrange.1 hrange.2]
  omega

theorem distanceFits_of_pos {now stamp : Int64} (hnow : 0 < now.toInt) (hstamp : 0 < stamp.toInt) :
    DistanceFits now stamp := by
  have hhigh := now.toInt_lt
  have hhigh' := stamp.toInt_lt
  rw [DistanceFits, abs_lt]
  omega

/-! ### The arithmetic of identities -/

/-- Each function is exact where the sums and differences that it forms are numbers of 64 bits, and
the gate where the pid is one of 32 bits. Stamps that the probe itself returned are always near
enough for the reap of a tree. -/
theorem identityArithmetic (alive : Bool) (cmdline : Option String) (sessionBin : String)
    (procStartMs rowStartedAtMs : Option Int64) :
    ((Exactly fun c => pidIsForeignBy c alive cmdline sessionBin procStartMs rowStartedAtMs) ↔
        ∀ start recorded, procStartMs = some start → rowStartedAtMs = some recorded →
          SumFits recorded) ∧
    ((Exactly fun c => sweepRootAllowedBy c cmdline sessionBin procStartMs rowStartedAtMs) ↔
        ∀ start recorded, procStartMs = some start → rowStartedAtMs = some recorded →
          SumFits recorded) ∧
    (∀ serde payload isAlive procStart,
      (Exactly fun c => claimIsStaleBy c serde payload isAlive procStart) ↔
        ∀ pid claimed cur, claimNumber serde payload "pid" = some pid → isAlive pid = true →
          claimNumber serde payload "start" = some claimed → procStart pid = some cur →
            SumFits claimed) ∧
    (∀ probe key, (Exactly fun c => classifyBy c probe key) ↔
      ∀ now, probe.liveness key.pid ≠ .gone → probe.liveness key.pid ≠ .unknown →
        probe.startMs key.pid = some now → DistanceFits now key.startMs) ∧
    (∀ now stamp, (Exactly fun c => startMatchesBy c now stamp) ↔ DistanceFits now stamp) ∧
    (∀ nowMs nowMs' etime etime' now stamp, startFromEtime nowMs etime = some now →
      startFromEtime nowMs' etime' = some stamp → Exactly fun c => startMatchesBy c now stamp) ∧
    (∀ status pid recordedStartMs,
      (∀ process : Int → Int64 → LifecycleState,
        gatedLsStatus status pid recordedStartMs (fun key => process key.pid.toInt key.startMs) =
          exactLsStatus status pid recordedStartMs process) ↔
        ∀ p s, shownLive status = true → pid = some p → recordedStartMs = some s → PidFits p) ∧
    ∀ nowMs etime start, startFromEtime nowMs etime = some start →
      0 < start.toInt ∧ start.toInt ≤ nowMs.toInt := by
  refine ⟨pidIsForeign_exactly_iff, sweepRootAllowed_exactly_iff,
    fun _ _ _ _ => claimIsStale_exactly_iff, fun _ _ => classify_exactly_iff,
    fun _ _ => startMatches_exactly_iff, ?_, fun _ _ _ => gatedLsStatus_exact_iff,
    fun _ _ _ => startFromEtime_range⟩
  intro nowMs nowMs' etime etime' now stamp hnow hstamp
  rw [startMatches_exactly_iff]
  exact distanceFits_of_pos (startFromEtime_range hnow).1 (startFromEtime_range hstamp).1

/-- A process of five seconds, and one of a day. -/
theorem identityArithmetic_day :
    (Exactly fun c => startMatchesBy c 1780721995000 1780635600000) ∧
      0 < (1780721995000 : Int64).toInt ∧
        (1780721995000 : Int64).toInt ≤ (1780722000000 : Int64).toInt := by
  have hfive : startFromEtime 1780722000000 "00:05\n".toList = some 1780721995000 := by
    decide
  have hday : startFromEtime 1780722000000 "1-00:00:00\n".toList = some 1780635600000 := by
    decide
  exact ⟨(identityArithmetic true none "" none none).2.2.2.2.2.1 _ _ _ _ _ _ hfive hday,
    (identityArithmetic true none "" none none).2.2.2.2.2.2.2 _ _ _ hfive⟩

/-- A stamp near the largest number, one near the least, and a pid of more than 32 bits. -/
theorem identity_far :
    (¬ ∀ alive cmdline sessionBin procStartMs rowStartedAtMs,
      Exactly fun c => pidIsForeignBy c alive cmdline sessionBin procStartMs rowStartedAtMs) ∧
    (¬ ∀ cmdline sessionBin procStartMs rowStartedAtMs,
      Exactly fun c => sweepRootAllowedBy c cmdline sessionBin procStartMs rowStartedAtMs) ∧
    (¬ ∀ serde payload isAlive procStart,
      Exactly fun c => claimIsStaleBy c serde payload isAlive procStart) ∧
    (¬ ∀ probe key, Exactly fun c => classifyBy c probe key) ∧
    ¬ ∀ status pid recordedStartMs (process : Int → Int64 → LifecycleState),
      gatedLsStatus status pid recordedStartMs (fun key => process key.pid.toInt key.startMs) =
        exactLsStatus status pid recordedStartMs process := by
  have hsum : ¬ SumFits 9223372036854775807 := by
    rw [SumFits]
    decide
  refine ⟨fun h => ?_, fun h => ?_, fun h => ?_, fun h => ?_, fun h => ?_⟩
  · exact hsum (pidIsForeign_exactly_iff.mp (h true none "claude" (some 1) (some _)) 1 _ rfl rfl)
  · exact hsum (sweepRootAllowed_exactly_iff.mp (h none "claude" (some 1) (some _)) 1 _ rfl rfl)
  · have hclaim := claimIsStale_exactly_iff.mp
      (h (.knowing [.obj [("pid", .num 7), ("start", .num 9223372036854775807)]])
        (encodeUtf8 (Json.obj [("pid", .num 7), ("start", .num 9223372036854775807)]).compact)
        (fun _ => true) (fun _ => some 1))
    exact hsum (hclaim 7 _ 1 (by decide) rfl (by decide) rfl)
  · have hdistance := classify_exactly_iff.mp
      (h ⟨fun _ => some 1, fun _ => .sleeping⟩ ⟨7, -9223372036854775808⟩) 1 nofun nofun rfl
    rw [DistanceFits, abs_lt] at hdistance
    revert hdistance
    decide
  · have hfits := gatedLsStatus_exact_iff.mp (h .busy (some 4294967297) (some 1)) _ 1 rfl rfl rfl
    rw [PidFits] at hfits
    revert hfits
    decide

end QuorumDispatch.Kill
