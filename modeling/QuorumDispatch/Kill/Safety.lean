import QuorumDispatch.Kill.Reap

/-!
What a reap may destroy, and that it destroys nothing else. Every kill, and every tombstone, is
held against the probes that were answered before it in the same call.
-/

namespace QuorumDispatch.Kill

open Lib
open Lib.Dialog hiding pure bind ask
open ProcTable (ZmxWrapper)

/-! ### What may be destroyed -/

section Targets

variable (env : ReapEnv) (session : Session) (h : History)

/-- The process with the recorded pid, as the first look at it was answered. -/
structure FirstLook (p : Int32) (alive : Bool) (cmdline : Option String) (started : Option Int64) :
    Prop where
  recorded : session.pid = some p.toInt64
  looked : First h (.isAlive p) alive
  probed : if alive then First h (.cmdline p) cmdline ∧ First h (.procStart p) started
    else cmdline = none ∧ started = none

def Foreign : Prop :=
  session.whichBranch.provenance = .registry ∧ ∃ p alive cmdline started,
    FirstLook session h p alive cmdline started ∧
      pidIsForeign alive cmdline env.sessionBin started session.startedAtMs = true

def NotForeign : Prop :=
  ∃ p alive cmdline started, FirstLook session h p alive cmdline started ∧
    (session.whichBranch.provenance = .paneDerived ∨
      pidIsForeign alive cmdline env.sessionBin started session.startedAtMs = false)

/-- A listed pane with this dir and name that is not attachable, or whose process is the recorded
one, above the recorded one, or dead. -/
def PaneOk (dir name : String) : Prop :=
  ∃ d raw listed z, Asked h (.list d raw) (some listed) ∧ z ∈ listed ∧ z.name = name ∧
    z.socketDir.getD env.canonicalDir = dir ∧
    (isAttachable z = false ∨ session.pid = some z.pid.toInt64 ∨
      (NotForeign env session h ∧ ∃ p table, session.pid = some p.toInt64 ∧
        Asked h .psRows (some table) ∧ z.pid ∈ table.ancestorChain p) ∨
      Latest h (.isAlive z.pid) false)

/-- A wrapper around the recorded process, or one whose command line now has the session's
name. -/
def WrapperOk (p : Int32) : Prop :=
  (NotForeign env session h ∧ ∃ q table name, session.pid = some q.toInt64 ∧
    Asked h .psRows (some table) ∧ table.Wraps q { wrapperPid := p, zmxName := name }) ∨
  ∃ cmd name, Latest h (.cmdline p) (some cmd) ∧ wrapperKillAllowed (some cmd) name = true ∧
    eqIgnoreAsciiCase name session.lookupKey = true

/-- A proper descendant of the recorded process, which was alive, not foreign and positively
witnessed. It was stamped with its start. -/
structure Stamped (p : Int32) (stamp : Int64) : Prop where
  root : ∃ root table cmdline started, FirstLook session h root true cmdline started ∧
    (session.whichBranch.provenance = .paneDerived ∨
      pidIsForeign true cmdline env.sessionBin started session.startedAtMs = false ∧
      sweepRootAllowed cmdline env.sessionBin started session.startedAtMs = true) ∧
    Asked h .psRows (some table) ∧ p ≠ root ∧ Relation.TransGen table.Child p root
  stamp : First h (.procStart p) (some stamp)

/-- The process started when the one with the stamp did, as it was found last. -/
def StillMatches (p : Int32) (stamp : Int64) : Prop :=
  ∃ now, Latest h (.procStart p) (some now) ∧ startMatches now stamp = true

/-- The recorded process is foreign or dead; a pid that no process can have is dead. -/
def TombstoneOk (pid : Int64) : Prop :=
  session.pid = some pid ∧
    (Foreign env session h ∨ ∀ p : Int32, p.toInt64 = pid → Latest h (.isAlive p) false)

def Allowed : Query → Prop
  | .muxKill dir name => PaneOk env session h dir name
  | .signal .killPid p _ =>
      NotForeign env session h ∧ session.pid = some p.toInt64 ∨ WrapperOk env session h p
  | .signal .killPidTree p _ =>
      ∃ stamp, Stamped env session h p stamp ∧ StillMatches h p stamp
  | .tombstone pid _ => TombstoneOk env session h pid
  | _ => True

end Targets

def Quiet : Query → Prop
  | .muxKill .. | .signal .. | .tombstone .. => False
  | _ => True

variable {env : ReapEnv} {session : Session} {h h' : History}

theorem allowed_of_quiet {q : Query} (hq : Quiet q) : Allowed env session h q := by
  cases q <;> trivial

/-! ### What is known stays known -/

theorem FirstLook.append {p : Int32} {alive : Bool} {cmdline : Option String}
    {started : Option Int64} (hlook : FirstLook session h p alive cmdline started) (hpre : h <+: h') :
    FirstLook session h' p alive cmdline started where
  recorded := hlook.recorded
  looked := hlook.looked.append hpre
  probed := by
    have hprobed := hlook.probed
    cases alive with
    | true => exact ⟨hprobed.1.append hpre, hprobed.2.append hpre⟩
    | false => exact hprobed

theorem NotForeign.append (hours : NotForeign env session h) (hpre : h <+: h') :
    NotForeign env session h' := by
  obtain ⟨p, alive, cmdline, started, hlook, hnot⟩ := hours
  exact ⟨p, alive, cmdline, started, hlook.append hpre, hnot⟩

theorem Foreign.append (hforeign : Foreign env session h) (hpre : h <+: h') :
    Foreign env session h' := by
  obtain ⟨hregistry, p, alive, cmdline, started, hlook, hyes⟩ := hforeign
  exact ⟨hregistry, p, alive, cmdline, started, hlook.append hpre, hyes⟩

theorem Stamped.append {p : Int32} {stamp : Int64} (hstamped : Stamped env session h p stamp)
    (hpre : h <+: h') : Stamped env session h' p stamp where
  root := by
    obtain ⟨root, table, cmdline, started, hlook, hwitness, hasked, hbelow⟩ := hstamped.root
    exact ⟨root, table, cmdline, started, hlook.append hpre, hwitness, hasked.append hpre, hbelow⟩
  stamp := hstamped.stamp.append hpre

theorem PaneOk.since {P : Query → Prop} {dir name : String} (hpane : PaneOk env session h dir name)
    (hsince : Since P h h') (hP : ∀ p, ¬P (.isAlive p)) : PaneOk env session h' dir name := by
  obtain ⟨d, raw, listed, z, hasked, hz, hname, hdir, hwhy⟩ := hpane
  refine ⟨d, raw, listed, z, hasked.append hsince.isPrefix, hz, hname, hdir, ?_⟩
  rcases hwhy with hended | hsame | ⟨hours, p, table, hpid, htable, habove⟩ | hdead
  · exact .inl hended
  · exact .inr (.inl hsame)
  · exact .inr (.inr (.inl ⟨hours.append hsince.isPrefix, p, table, hpid,
      htable.append hsince.isPrefix, habove⟩))
  · exact .inr (.inr (.inr (hdead.since hsince (hP z.pid))))

theorem WrapperOk.since {P : Query → Prop} {p : Int32} (hwrapper : WrapperOk env session h p)
    (hsince : Since P h h') (hP : ∀ p, ¬P (.cmdline p)) : WrapperOk env session h' p := by
  rcases hwrapper with ⟨hours, q, table, name, hpid, htable, hwraps⟩ | ⟨cmd, name, hcmd, hallowed, hkey⟩
  · exact .inl ⟨hours.append hsince.isPrefix, q, table, name, hpid, htable.append hsince.isPrefix,
      hwraps⟩
  · exact .inr ⟨cmd, name, hcmd.since hsince (hP p), hallowed, hkey⟩

/-! ### Probes -/

theorem only_isPidAlive {P : Query → Prop} {p : Int32} (hP : P (.isAlive p)) :
    Only P (isPidAlive p) := by
  unfold isPidAlive
  split
  · trivial
  · exact only_query.mpr hP

theorem only_isPidDead {P : Query → Prop} {p : Int32} (hP : P (.isAlive p)) :
    Only P (isPidDead p) :=
  (only_isPidAlive hP).bind fun _ => trivial

theorem only_procStartMs {P : Query → Prop} {p : Int32} (hP : P (.procStart p)) :
    Only P (procStartMs p) := by
  unfold procStartMs
  split
  · trivial
  · exact only_query.mpr hP

theorem only_scanAllDirs {P : Query → Prop} {raw : Bool} (hP : ∀ d, P (.list d raw))
    (dirs : List String) : Only P (scanAllDirs raw dirs) := by
  induction dirs with
  | nil => trivial
  | cons dir dirs ih => exact ⟨hP dir, fun _ => ih.bind fun _ => trivial⟩

theorem ensures_scanAllDirs {allowed : History → Query → Prop} {raw : Bool}
    (hallowed : ∀ h d, allowed h (.list d raw)) (dirs : List String) :
    Ensures allowed h (scanAllDirs raw dirs) fun listed h' =>
      ∀ z ∈ listed, ∃ d l, Asked h' (.list d raw) (some l) ∧ z ∈ l := by
  induction dirs generalizing h with
  | nil => exact fun z hz => absurd hz List.not_mem_nil
  | cons dir dirs ih =>
      refine ⟨hallowed h dir, fun l => ih.bind fun rest h' hpre hrest => ?_⟩
      intro z hz
      rcases List.mem_append.mp hz with hz | hz
      · cases l with
        | none => cases hz
        | some l => exact ⟨dir, l, asked_snoc.append hpre, hz⟩
      · exact hrest z hz

/-! ### Single signals -/

/-- What `killPid` asks. -/
def KillPidAsks (p : Int32) : Query → Prop
  | .isAlive q => q = p
  | .deadlinePassed => True
  | .signal .killPid q _ => q = p
  | _ => False

theorem only_awaitExit (p : Int32) (n : Nat) : Only (KillPidAsks p) (awaitExit p n) := by
  induction n with
  | zero => trivial
  | succ n ih =>
      refine ⟨trivial, fun passed => ?_⟩
      cases passed with
      | true => trivial
      | false =>
          refine (only_isPidAlive (P := KillPidAsks p) rfl).bind fun alive => ?_
          cases alive with
          | true => exact ih
          | false => trivial

theorem only_settle (p : Int32) (n : Nat) : Only (KillPidAsks p) (settle p n) := by
  induction n with
  | zero => exact only_isPidDead rfl
  | succ n ih =>
      refine (only_isPidAlive (P := KillPidAsks p) rfl).bind fun alive => ?_
      cases alive with
      | true => exact ih
      | false => trivial

theorem only_killPid (p : Int32) : Only (KillPidAsks p) (killPid p) := by
  unfold killPid
  split
  · trivial
  refine (only_isPidAlive (P := KillPidAsks p) rfl).bind fun alive => ?_
  cases alive with
  | false => trivial
  | true =>
      refine ⟨rfl, fun sent => ?_⟩
      cases sent with
      | false => exact only_isPidDead rfl
      | true =>
          refine (only_awaitExit p gracePolls).bind fun gone => ?_
          cases gone with
          | true => trivial
          | false =>
              refine ⟨rfl, fun sent => ?_⟩
              cases sent with
              | false => exact only_isPidDead rfl
              | true => exact only_settle p 10

theorem ensures_killPid {p : Int32}
    (hsignal : ∀ h' sig, Since (KillPidAsks p) h h' → Allowed env session h' (.signal .killPid p sig)) :
    Ensures (Allowed env session) h (killPid p) fun _ h' => Since (KillPidAsks p) h h' := by
  refine (only_killPid p).ensures fun h' q hsince hq => ?_
  cases q with
  | signal sender q sig =>
      cases sender with
      | killPid =>
          have hqp : q = p := hq
          exact hqp ▸ hsignal h' sig hsince
      | killPidTree => exact hq.elim
  | muxKill dir name => exact hq.elim
  | tombstone pid fallback => exact hq.elim
  | _ => trivial

/-! ### The sweep -/

def VictimAsks (p : Int32) : Query → Prop
  | .isAlive q | .isZombie q | .procStart q => q = p
  | _ => False

theorem quiet_of_victimAsks {p : Int32} {q : Query} (hq : VictimAsks p q) : Quiet q := by
  cases q <;> trivial

theorem only_deadOrZombie (p : Int32) : Only (VictimAsks p) (deadOrZombie p) := by
  refine (only_isPidAlive (P := VictimAsks p) rfl).bind fun alive => ?_
  cases alive with
  | false => trivial
  | true =>
      change Only (VictimAsks p) (procIsZombie p)
      unfold procIsZombie
      split
      · trivial
      · exact only_query.mpr rfl

theorem only_stillRuns (v : Int32 × Int64) : Only (VictimAsks v.1) (stillRuns v) :=
  (only_deadOrZombie v.1).bind fun _ => trivial

theorem only_stillOurs (v : Int32 × Int64) : Only (VictimAsks v.1) (stillOurs v) := by
  refine (only_deadOrZombie v.1).bind fun gone => ?_
  cases gone with
  | true => trivial
  | false => exact (only_procStartMs (P := VictimAsks v.1) rfl).bind fun _ => trivial

theorem ensures_stillOurs (v : Int32 × Int64) :
    Ensures (Allowed env session) h (stillOurs v) fun kept h' =>
      (kept = true → StillMatches h' v.1 v.2) ∧ Since (VictimAsks v.1) h h' := by
  refine Ensures.since ?_ (only_stillOurs v)
  have hquiet : Ensures (Allowed env session) h (deadOrZombie v.1) fun _ h' =>
      Since (VictimAsks v.1) h h' :=
    (only_deadOrZombie v.1).ensures fun _ _ _ hq => allowed_of_quiet (quiet_of_victimAsks hq)
  refine hquiet.bind fun gone h' _ _ => ?_
  cases gone with
  | true => exact fun hkept => by cases hkept
  | false =>
      change Ensures _ h' (identityHolds v) _
      unfold identityHolds procStartMs
      split
      · exact fun hkept => by cases hkept
      · refine ⟨trivial, fun start hkept => ?_⟩
        cases start with
        | none => cases hkept
        | some now => exact ⟨now, latest_snoc, hkept⟩

theorem StillMatches.since {P : Query → Prop} {p : Int32} {stamp : Int64}
    (hmatch : StillMatches h p stamp) (hsince : Since P h h') (hP : ¬P (.procStart p)) :
    StillMatches h' p stamp := by
  obtain ⟨now, hlatest, hnow⟩ := hmatch
  exact ⟨now, hlatest.since hsince hP, hnow⟩

theorem only_retain {keep : Int32 × Int64 → Reap Bool}
    (hkeep : ∀ v, Only (VictimAsks v.1) (keep v)) (vs : List (Int32 × Int64)) :
    Only (fun q => ∃ v ∈ vs, VictimAsks v.1 q) (retain keep vs) := by
  induction vs with
  | nil => trivial
  | cons v vs ih =>
      refine ((hkeep v).mono fun q hq => ⟨v, List.mem_cons_self, hq⟩).bind fun kept => ?_
      refine (ih.mono fun q hq => ?_).bind fun _ => trivial
      obtain ⟨w, hw, hq⟩ := hq
      exact ⟨w, List.mem_cons_of_mem v hw, hq⟩

theorem ensures_retain {keep : Int32 × Int64 → Reap Bool}
    (hkeep : ∀ v, Only (VictimAsks v.1) (keep v)) (vs : List (Int32 × Int64)) :
    Ensures (Allowed env session) h (retain keep vs) fun kept _ => kept.Sublist vs := by
  induction vs generalizing h with
  | nil => exact List.Sublist.refl []
  | cons v vs ih =>
      refine ((hkeep v).ensures fun _ _ _ hq => allowed_of_quiet (quiet_of_victimAsks hq)).bind
        fun kept h' _ _ => ?_
      refine ih.bind fun rest h'' _ hrest => ?_
      cases kept with
      | true => exact hrest.cons_cons v
      | false => exact hrest.cons v

/-- Those that are still ours were each just found to start when they were stamped: a look at
one is no look at another. -/
theorem ensures_retain_stillOurs {vs : List (Int32 × Int64)} (hnodup : (vs.map Prod.fst).Nodup) :
    Ensures (Allowed env session) h (retain stillOurs vs) fun kept h' =>
      kept.Sublist vs ∧ ∀ v ∈ kept, StillMatches h' v.1 v.2 := by
  induction vs generalizing h with
  | nil => exact ⟨List.Sublist.refl [], fun _ hv => absurd hv List.not_mem_nil⟩
  | cons v vs ih =>
      obtain ⟨hfresh, hnodup⟩ := List.nodup_cons.mp hnodup
      refine (ensures_stillOurs v).bind fun kept h' _ hkept => ?_
      refine ((ih hnodup).since (only_retain only_stillOurs vs)).bind fun rest h'' _ hrest => ?_
      obtain ⟨⟨hsub, hmatch⟩, hsince⟩ := hrest
      cases kept with
      | false => exact ⟨hsub.cons v, hmatch⟩
      | true =>
          refine ⟨hsub.cons_cons v, fun w hw => ?_⟩
          rcases List.mem_cons.mp hw with rfl | hw
          · refine (hkept.1 rfl).since hsince ?_
            rintro ⟨u, hu, hsame⟩
            have hwu : w.1 = u.1 := hsame
            exact hfresh (hwu ▸ List.mem_map_of_mem hu)
          · exact hmatch w hw

def Victims (env : ReapEnv) (session : Session) (h : History) (vs : List (Int32 × Int64)) : Prop :=
  ∀ v ∈ vs, Stamped env session h v.1 v.2

theorem Victims.append {vs : List (Int32 × Int64)} (hvs : Victims env session h vs) (hpre : h <+: h') :
    Victims env session h' vs :=
  fun v hv => (hvs v hv).append hpre

theorem Victims.sublist {vs ws : List (Int32 × Int64)} (hvs : Victims env session h vs)
    (hsub : ws.Sublist vs) : Victims env session h ws :=
  fun v hv => hvs v (hsub.subset hv)

theorem ensures_termVictims {vs : List (Int32 × Int64)} (hvs : Victims env session h vs) :
    Ensures (Allowed env session) h (termVictims vs) fun pending _ => pending.Sublist vs := by
  induction vs generalizing h with
  | nil => exact List.Sublist.refl []
  | cons v vs ih =>
      have hrest : ∀ {h'}, h <+: h' → Victims env session h' vs := fun hpre w hw =>
        (hvs w (List.mem_cons_of_mem v hw)).append hpre
      have hlook : Ensures (Allowed env session) h (if v.1 ≤ 0 then pure false else stillOurs v)
          fun ours h' => ours = true → StillMatches h' v.1 v.2 := by
        split
        · exact fun hours => by cases hours
        · exact (ensures_stillOurs v).mono fun ours h' _ hours => hours.1
      refine hlook.bind fun ours h' hpre hours => ?_
      cases ours with
      | false =>
          exact (ih (hrest hpre)).mono fun pending _ _ hsub => hsub.cons v
      | true =>
          refine ⟨⟨v.2, (hvs v List.mem_cons_self).append hpre, hours rfl⟩, fun sent => ?_⟩
          refine (ih (hrest (hpre.trans (List.prefix_append h' _)))).bind fun rest _ _ hsub => ?_
          exact hsub.cons_cons v

theorem ensures_awaitVictims (n : Nat) (vs : List (Int32 × Int64)) :
    Ensures (Allowed env session) h (awaitVictims n vs) fun pending _ => pending.Sublist vs := by
  induction n generalizing h vs with
  | zero => exact List.Sublist.refl vs
  | succ n ih =>
      unfold awaitVictims
      split
      · exact List.nil_sublist vs
      · refine ⟨trivial, fun passed => ?_⟩
        cases passed with
        | true => exact List.Sublist.refl vs
        | false =>
            refine (ensures_retain only_stillRuns vs).bind fun pending _ _ hsub => ?_
            exact (ih pending).mono fun left _ _ hleft => hleft.trans hsub

theorem ensures_killVictims {vs : List (Int32 × Int64)} (hvs : Victims env session h vs)
    (hmatch : ∀ v ∈ vs, StillMatches h v.1 v.2) :
    Ensures (Allowed env session) h (killVictims vs) fun _ _ => True := by
  induction vs generalizing h with
  | nil => trivial
  | cons v vs ih =>
      refine ⟨⟨v.2, hvs v List.mem_cons_self, hmatch v List.mem_cons_self⟩, fun sent => ih ?_ ?_⟩
      · exact (hvs.sublist (List.sublist_cons_self v vs)).append (List.prefix_append h _)
      · intro w hw
        have hsince : Since (fun q => ∃ p sig, q = .signal .killPidTree p sig) h
            (h ++ [⟨.signal .killPidTree v.1 .kill, sent⟩]) := since_snoc ⟨_, _, rfl⟩
        refine (hmatch w (List.mem_cons_of_mem v hw)).since hsince ?_
        rintro ⟨p, sig, hsame⟩
        cases hsame

theorem ensures_settleVictims (n : Nat) (vs : List (Int32 × Int64)) :
    Ensures (Allowed env session) h (settleVictims n vs) fun _ _ => True := by
  induction n generalizing h vs with
  | zero => trivial
  | succ n ih =>
      refine (ensures_retain only_stillOurs vs).bind fun pending _ _ _ => ?_
      split
      · trivial
      · exact ih pending

/-- **The sweep** signals the victims only, and none that was replaced since it was stamped. -/
theorem ensures_killPidTree {vs : List (Int32 × Int64)} (hvs : Victims env session h vs)
    (hnodup : (vs.map Prod.fst).Nodup) :
    Ensures (Allowed env session) h (killPidTree vs) fun _ _ => True := by
  refine (ensures_termVictims hvs).bind fun asked h₁ hpre₁ hasked => ?_
  refine (ensures_awaitVictims gracePolls asked).bind fun waited h₂ hpre₂ hwaited => ?_
  have hsub := hwaited.trans hasked
  refine (ensures_retain_stillOurs (hnodup.sublist (hsub.map Prod.fst))).bind
    fun pending h₃ hpre₃ hpending => ?_
  have hvictims : Victims env session h₃ pending :=
    (hvs.sublist (hpending.1.trans hsub)).append ((hpre₁.trans hpre₂).trans hpre₃)
  refine (ensures_killVictims hvictims hpending.2).bind fun _ h₄ _ _ => ?_
  exact (ensures_settleVictims 10 pending).bind fun _ _ _ _ => trivial

/-! ### The first look -/

/-- Narrowed to an `i32`, the pid is the pid, or it is of no process. -/
def pidFits (pid : Int64) : Bool :=
  decide (pid ≤ 0) || decide (pid.toInt32 ≤ 0) || pid.toInt32.toInt64 == pid

theorem toInt64_toInt32 {pid : Int64} (hfits : pidFits pid = true) (hpid : 0 < pid)
    (hnarrow : 0 < pid.toInt32) : pid.toInt32.toInt64 = pid := by
  simp only [pidFits, Bool.or_eq_true, decide_eq_true_eq, beq_iff_eq] at hfits
  rcases hfits with (hfits | hfits) | hfits
  · exact absurd hpid (Int64.not_lt.mpr hfits)
  · exact absurd hnarrow (Int32.not_lt.mpr hfits)
  · exact hfits

/-- The command line of a process is read where its pid is one. -/
theorem realCmdlineProbe_toInt64 {p : Int32} (hp : 0 < p) :
    realCmdlineProbe p.toInt64 = ask (.cmdline p) := by
  have hpos : ¬p.toInt64 ≤ 0 := by
    rw [Int64.le_iff_toInt_le, Int32.toInt_toInt64]
    rw [Int32.lt_iff_toInt_lt] at hp
    exact Int.not_le.mpr hp
  have hmax : ¬Int64.ofInt (2 ^ 31 - 1) < p.toInt64 := by
    rw [Int64.lt_iff_toInt_lt, Int32.toInt_toInt64]
    have hlt := p.toInt_lt
    have hbound : (Int64.ofInt (2 ^ 31 - 1)).toInt = 2 ^ 31 - 1 := by decide
    omega
  rw [realCmdlineProbe, if_neg (not_or.mpr ⟨hpos, hmax⟩), Int32.toInt32_toInt64]

theorem recorded_of_pos {pid : Int64} (hsession : session.pid.getD 0 = pid) (hpid : 0 < pid) :
    session.pid = some pid := by
  cases hrow : session.pid with
  | none =>
      rw [hrow] at hsession
      rw [← hsession] at hpid
      exact absurd hpid (by decide)
  | some q =>
      rw [hrow] at hsession
      rw [← hsession]
      rfl

def ListingAsks : Query → Prop
  | .psRows | .list .. => True
  | _ => False

theorem ensures_probePid {pid : Int64} (hsession : session.pid.getD 0 = pid)
    (hfits : pidFits pid = true) (hsince : Since ListingAsks [] h) :
    Ensures (Allowed env session) h (probePid pid) fun (alive, cmdline, started) h' =>
      (alive = true → 0 < pid ∧ 0 < pid.toInt32) ∧
      (0 < pid → 0 < pid.toInt32 → FirstLook session h' pid.toInt32 alive cmdline started) ∧
      ∀ p, p ≠ pid.toInt32 → NotAsked h' (.procStart p) := by
  have hnew : ∀ q, ¬ListingAsks q → NotAsked h q := by
    intro q hq
    have hnil : NotAsked ([] : History) q := fun e he => absurd he List.not_mem_nil
    exact hnil.since hsince hq
  have hstart : ∀ p, NotAsked h (.procStart p) := fun p => hnew _ fun hq => hq.elim
  unfold probePid
  by_cases hpid : 0 < pid
  · rw [if_pos hpid]
    unfold isPidAlive
    by_cases hnarrow : 0 < pid.toInt32
    · rw [if_neg (Int32.not_le.mpr hnarrow)]
      have hsame := toInt64_toInt32 hfits hpid hnarrow
      have hrecorded : session.pid = some pid.toInt32.toInt64 := by
        rw [hsame]
        exact recorded_of_pos hsession hpid
      refine ⟨trivial, fun alive => ?_⟩
      have hlooked : First (h ++ [⟨.isAlive pid.toInt32, alive⟩]) (.isAlive pid.toInt32) alive :=
        first_snoc (hnew _ fun hq => hq.elim)
      have hstart₁ : ∀ p, NotAsked (h ++ [⟨.isAlive pid.toInt32, alive⟩]) (.procStart p) :=
        fun p => (hstart p).snoc fun heq => Query.noConfusion heq
      cases alive with
      | false =>
          refine ⟨fun halive => Bool.noConfusion halive, fun _ _ => ⟨hrecorded, hlooked, rfl, rfl⟩, ?_⟩
          exact fun p _ => hstart₁ p
      | true =>
          change Ensures _ _ (realCmdlineProbe pid >>= _) _
          rw [← hsame, realCmdlineProbe_toInt64 hnarrow, hsame]
          refine ⟨trivial, fun cmdline => ?_⟩
          change Ensures _ _ (procStartMs pid.toInt32 >>= _) _
          rw [procStartMs, if_neg (Int32.not_le.mpr hnarrow)]
          refine ⟨trivial, fun started => ?_⟩
          have hcmdline : NotAsked (h ++ [⟨.isAlive pid.toInt32, true⟩]) (.cmdline pid.toInt32) :=
            (hnew (.cmdline pid.toInt32) fun hq => hq.elim).snoc fun heq => Query.noConfusion heq
          have hstart₂ : ∀ p, NotAsked (h ++ [⟨.isAlive pid.toInt32, true⟩] ++
              [⟨.cmdline pid.toInt32, cmdline⟩]) (.procStart p) :=
            fun p => (hstart₁ p).snoc fun heq => Query.noConfusion heq
          refine ⟨fun _ => ⟨hpid, hnarrow⟩, fun _ _ => ⟨hrecorded, ?_, ?_, ?_⟩, fun p hp => ?_⟩
          · exact (hlooked.append (List.prefix_append _ _)).append (List.prefix_append _ _)
          · exact (first_snoc hcmdline).append (List.prefix_append _ _)
          · exact first_snoc (hstart₂ _)
          · exact (hstart₂ p).snoc fun heq => hp (by injection heq with heq; exact heq.symm)
    · rw [if_pos (Int32.not_lt.mp hnarrow)]
      exact ⟨fun halive => Bool.noConfusion halive, fun _ hp => absurd hp hnarrow, fun p _ => hstart p⟩
  · rw [if_neg hpid]
    exact ⟨fun halive => Bool.noConfusion halive, fun hp => absurd hp hpid, fun p _ => hstart p⟩

structure Gathered.Known (g : Gathered) (env : ReapEnv) (session : Session) (h : History)
    (pid : Int64) : Prop where
  table : ∀ t, g.table = some t → Asked h .psRows (some t)
  live : ∀ z ∈ g.liveList, ∃ d l, Asked h (.list d false) (some l) ∧ z ∈ l
  raw : ∀ z ∈ g.rawList, ∃ d l, Asked h (.list d true) (some l) ∧ z ∈ l
  alive : g.alive = true → 0 < pid ∧ 0 < pid.toInt32
  look : 0 < pid → 0 < pid.toInt32 → FirstLook session h pid.toInt32 g.alive g.cmdline g.started
  untabled : ¬0 < pid → g.table = none
  unstamped : ∀ p, p ≠ pid.toInt32 → NotAsked h (.procStart p)

theorem ensures_gather {pid : Int64} (hsession : session.pid.getD 0 = pid)
    (hfits : pidFits pid = true) :
    Ensures (Allowed env session) [] (gather env pid) fun g h => g.Known env session h pid := by
  have htable : Ensures (Allowed env session) []
      (if 0 < pid then ask .psRows else pure none : Reap (Option ProcTable)) fun table h =>
        (∀ t, table = some t → Asked h .psRows (some t)) ∧ (¬0 < pid → table = none) ∧
          Since ListingAsks [] h := by
    split
    next hpid =>
      refine ⟨trivial, fun table => ⟨fun t ht => ?_, fun hnot => absurd hpid hnot, since_snoc trivial⟩⟩
      exact ht ▸ asked_snoc
    next => exact ⟨fun _ ht => (nomatch ht), fun _ => rfl, .refl⟩
  refine htable.bind fun table h₁ _ hknown => ?_
  obtain ⟨hasked, hnone, hsince₁⟩ := hknown
  refine ((ensures_scanAllDirs (fun _ _ => trivial) env.dirs).since
    (only_scanAllDirs (P := ListingAsks) (fun _ => trivial) env.dirs)).bind fun live h₂ hpre₂ hlive => ?_
  refine ((ensures_scanAllDirs (fun _ _ => trivial) env.dirs).since
    (only_scanAllDirs (P := ListingAsks) (fun _ => trivial) env.dirs)).bind fun raw h₃ hpre₃ hraw => ?_
  have hsince₃ := (hsince₁.trans hlive.2).trans hraw.2
  refine (ensures_probePid hsession hfits hsince₃).bind fun probed h₄ hpre₄ hprobed => ?_
  obtain ⟨alive, cmdline, started⟩ := probed
  obtain ⟨halive, hlook, hunstamped⟩ := hprobed
  refine ⟨fun t ht => ?_, fun z hz => ?_, fun z hz => ?_, halive, hlook, hnone, hunstamped⟩
  · exact (hasked t ht).append ((hpre₂.trans hpre₃).trans hpre₄)
  · obtain ⟨d, l, hl, hzl⟩ := hlive.1 z hz
    exact ⟨d, l, hl.append (hpre₃.trans hpre₄), hzl⟩
  · obtain ⟨d, l, hl, hzl⟩ := hraw.1 z hz
    exact ⟨d, l, hl.append hpre₄, hzl⟩

/-! ### The witnesses -/

/-- Whether the recorded process is foreign is what it was found to be. -/
structure Gated (env : ReapEnv) (session : Session) (h : History) (pid : Int64)
    (pidForeign : Bool) : Prop where
  foreign : pidForeign = true → Foreign env session h
  ours : pidForeign = false → 0 < pid → 0 < pid.toInt32 → NotForeign env session h

theorem Gated.append {pid : Int64} {pidForeign : Bool} (hgate : Gated env session h pid pidForeign)
    (hpre : h <+: h') : Gated env session h' pid pidForeign where
  foreign hforeign := (hgate.foreign hforeign).append hpre
  ours hours hpid hnarrow := (hgate.ours hours hpid hnarrow).append hpre

/-- What is derived from the recorded pid is derived from a process that is not foreign. -/
structure Witnessed (env : ReapEnv) (session : Session) (h : History) (pid : Int64)
    (wrapper : Option ZmxWrapper) (ownerChain : List Int32) (pidForeign : Bool) : Prop
    extends Gated env session h pid pidForeign where
  wrapper : ∀ w, wrapper = some w → WrapperOk env session h w.wrapperPid
  chain : ∀ p ∈ ownerChain, NotForeign env session h ∧ ∃ q table, session.pid = some q.toInt64 ∧
    Asked h .psRows (some table) ∧ p ∈ table.ancestorChain q

theorem Gathered.Known.witnessed {g : Gathered} {pid : Int64} (hg : g.Known env session h pid) :
    (g.witnesses env session pid).1 = pid ∧
      Witnessed env session h pid (g.witnesses env session pid).2.1
        (g.witnesses env session pid).2.2.1 (g.witnesses env session pid).2.2.2 := by
  unfold Gathered.witnesses gatePidWitnesses
  split
  next hforeign =>
    obtain ⟨hregistry, hpid, hforeign⟩ := hforeign
    have halive : g.alive = true := by
      cases halive : g.alive with
      | true => rfl
      | false =>
          rw [halive] at hforeign
          cases hforeign
    have hlook := hg.look hpid (hg.alive halive).2
    exact ⟨rfl, ⟨fun _ => ⟨hregistry, _, _, _, _, hlook, hforeign⟩, fun h => Bool.noConfusion h⟩,
      fun _ hw => (nomatch hw), fun p hp => absurd hp List.not_mem_nil⟩
  next hnot =>
    have hours : 0 < pid → 0 < pid.toInt32 → NotForeign env session h := by
      intro hpid hnarrow
      refine ⟨_, _, _, _, hg.look hpid hnarrow, ?_⟩
      cases hbranch : session.whichBranch.provenance with
      | paneDerived => exact .inl rfl
      | registry =>
          refine .inr (Bool.eq_false_iff.mpr fun hforeign => hnot ⟨hbranch, hpid, hforeign⟩)
    refine ⟨rfl, ⟨fun h => Bool.noConfusion h, fun _ => hours⟩, fun w hw => ?_, fun p hp => ?_⟩
    · obtain ⟨t, htable, hfind⟩ := Option.bind_eq_some_iff.mp hw
      have hpid : 0 < pid := by
        by_contra hpid
        rw [hg.untabled hpid] at htable
        cases htable
      have hnarrow : 0 < pid.toInt32 := by
        by_contra hnarrow
        rw [ProcTable.findZmxWrapperForPid, if_pos (Int32.not_lt.mp hnarrow)] at hfind
        cases hfind
      exact .inl ⟨hours hpid hnarrow, _, t, w.zmxName, (hg.look hpid hnarrow).recorded,
        hg.table t htable, ProcTable.wraps_of_find hfind⟩
    · cases htable : g.table with
      | none =>
          rw [htable] at hp
          cases hp
      | some t =>
          rw [htable] at hp
          have hpid : 0 < pid := by
            by_contra hpid
            rw [hg.untabled hpid] at htable
            cases htable
          have hnarrow : 0 < pid.toInt32 := by
            by_contra hnarrow
            rw [Option.elim_some, ProcTable.ancestorChain, if_pos (Int32.not_lt.mp hnarrow)] at hp
            cases hp
          exact ⟨hours hpid hnarrow, _, t, (hg.look hpid hnarrow).recorded, hg.table t htable, hp⟩

theorem Witnessed.append {pid : Int64} {wrapper : Option ZmxWrapper} {ownerChain : List Int32}
    {pidForeign : Bool} (hw : Witnessed env session h pid wrapper ownerChain pidForeign)
    {P : Query → Prop} (hsince : Since P h h') (hP : ∀ p, ¬P (.cmdline p)) :
    Witnessed env session h' pid wrapper ownerChain pidForeign where
  toGated := hw.toGated.append hsince.isPrefix
  wrapper w hsome := (hw.wrapper w hsome).since hsince hP
  chain p hp := by
    obtain ⟨hours, q, table, hrecorded, hasked, hmem⟩ := hw.chain p hp
    exact ⟨hours.append hsince.isPrefix, q, table, hrecorded, hasked.append hsince.isPrefix, hmem⟩

/-! ### The victims -/

theorem only_stampVictims (ps : List Int32) :
    Only (fun q => ∃ p ∈ ps, q = .procStart p) (stampVictims ps) := by
  induction ps with
  | nil => trivial
  | cons p ps ih =>
      refine (only_procStartMs ⟨p, List.mem_cons_self, rfl⟩).bind fun start => ?_
      refine (ih.mono fun q hq => ?_).bind fun _ => trivial
      obtain ⟨r, hr, heq⟩ := hq
      exact ⟨r, List.mem_cons_of_mem p hr, heq⟩

theorem ensures_stampVictims {ps : List Int32} (hnodup : ps.Nodup)
    (hnew : ∀ p ∈ ps, NotAsked h (.procStart p)) :
    Ensures (Allowed env session) h (stampVictims ps) fun vs h' =>
      (vs.map Prod.fst).Sublist ps ∧ ∀ v ∈ vs, First h' (.procStart v.1) (some v.2) := by
  induction ps generalizing h with
  | nil => exact ⟨List.Sublist.refl [], fun _ hv => absurd hv List.not_mem_nil⟩
  | cons p ps ih =>
      obtain ⟨hfresh, hnodup⟩ := List.nodup_cons.mp hnodup
      have hstart : Ensures (Allowed env session) h (procStartMs p) fun start h' =>
          (∀ s, start = some s → First h' (.procStart p) (some s)) ∧
            ∀ r ∈ ps, NotAsked h' (.procStart r) := by
        have hrest : ∀ r ∈ ps, NotAsked h (.procStart r) :=
          fun r hr => hnew r (List.mem_cons_of_mem p hr)
        unfold procStartMs
        split
        · exact ⟨fun _ hs => (nomatch hs), hrest⟩
        · refine ⟨trivial, fun start => ⟨fun s hs => ?_, fun r hr => ?_⟩⟩
          · exact hs ▸ first_snoc (hnew p List.mem_cons_self)
          · refine (hrest r hr).snoc fun heq => hfresh ?_
            injection heq with heq
            exact heq ▸ hr
      refine hstart.bind fun start h' _ hstarted => ?_
      refine (ih hnodup hstarted.2).bind fun rest h'' hpre hrest => ?_
      cases start with
      | none => exact ⟨hrest.1.cons p, hrest.2⟩
      | some s =>
          refine ⟨hrest.1.cons_cons p, fun v hv => ?_⟩
          rcases List.mem_cons.mp hv with rfl | hv
          · exact (hstarted.1 s rfl).append hpre
          · exact hrest.2 v hv

/-- The sweep goes down from the recorded process if it is alive and positively witnessed. -/
theorem Gathered.Known.descendants {g : Gathered} {pid : Int64} (hg : g.Known env session h pid) :
    Ensures (Allowed env session) h
      (stampVictims (g.descendants env session pid (g.witnesses env session pid).2.2.2))
      fun vs h' => Victims env session h' vs ∧ (vs.map Prod.fst).Nodup := by
  unfold Gathered.descendants
  split
  next hok =>
    simp only [Gathered.sweepRootOk, Bool.and_eq_true, decide_eq_true_eq, Bool.not_eq_true',
      Bool.or_eq_true, beq_iff_eq] at hok
    obtain ⟨⟨⟨hpid, halive⟩, hours⟩, hwitness⟩ := hok
    have hlook := hg.look hpid (hg.alive halive).2
    rw [halive] at hlook
    have hroot : session.whichBranch.provenance = .paneDerived ∨
        pidIsForeign true g.cmdline env.sessionBin g.started session.startedAtMs = false ∧
        sweepRootAllowed g.cmdline env.sessionBin g.started session.startedAtMs = true := by
      rcases hwitness with hpane | hallowed
      · exact .inl hpane
      cases hbranch : session.whichBranch.provenance with
      | paneDerived => exact .inl rfl
      | registry =>
          refine .inr ⟨Bool.eq_false_iff.mpr fun hforeign => ?_, hallowed⟩
          rw [Gathered.witnesses, gatePidWitnesses, halive,
            if_pos ⟨hbranch, hpid, hforeign⟩] at hours
          cases hours
    cases htable : g.table with
    | none => exact ⟨fun v hv => absurd hv List.not_mem_nil, List.nodup_nil⟩
    | some t =>
        obtain ⟨hnodup, hbelow⟩ := ProcTable.descendantKillList_spec pid.toInt32 env.selfPid t
        refine (ensures_stampVictims hnodup fun p hp => hg.unstamped p (hbelow p hp).1).mono ?_
        rintro vs h' hpre ⟨hsub, hstamped⟩
        refine ⟨fun v hv => ⟨?_, hstamped v hv⟩, hnodup.sublist hsub⟩
        obtain ⟨hproper, hdesc⟩ := hbelow v.1 (hsub.subset (List.mem_map_of_mem hv))
        exact ⟨_, t, _, _, hlook.append hpre, hroot, (hg.table t htable).append hpre, hproper, hdesc⟩
  next => exact ⟨fun v hv => absurd hv List.not_mem_nil, List.nodup_nil⟩

/-! ### The target -/

/-- What is known of a target before its wrapper is looked at, and after. -/
structure Resolved (env : ReapEnv) (session : Session) (h : History) (target : ZmxReapTarget) :
    Prop where
  pane : target.zmxDirUnconfirmed = false → ∀ name dir, target.zmxName = some name →
    target.zmxDir = some dir → PaneOk env session h dir name
  unconfirmed : 0 < target.wrapperPid → target.zmxDirUnconfirmed = true →
    WrapperOk env session h target.wrapperPid
  confirmed : 0 < target.wrapperPid → target.zmxDirUnconfirmed = false →
    ∃ name, target.zmxName = some name ∧ eqIgnoreAsciiCase name session.lookupKey = true

structure TargetOk (env : ReapEnv) (session : Session) (h : History) (target : ZmxReapTarget) :
    Prop where
  pane : target.zmxDirUnconfirmed = false → ∀ name dir, target.zmxName = some name →
    target.zmxDir = some dir → PaneOk env session h dir name
  wrapper : 0 < target.wrapperPid → WrapperOk env session h target.wrapperPid

def ResolveAsks : Query → Prop
  | .isAlive _ => True
  | _ => False

theorem only_resolveLive {canonicalDir : String} {pid : Int64} {ownerChain : List Int32}
    (panes : List MuxSession) : Only ResolveAsks (resolveLive canonicalDir pid ownerChain panes) := by
  induction panes with
  | nil => trivial
  | cons pane panes ih =>
      have hdead : Only ResolveAsks
          (if 0 < pane.pid then isPidDead pane.pid else pure false : Reap Bool) := by
        split
        · exact only_isPidDead trivial
        · trivial
      refine hdead.bind fun dead => ?_
      split
      · trivial
      · exact ih

theorem ensures_resolveLive {pid : Int64} {wrapper : Option ZmxWrapper} {ownerChain : List Int32}
    {pidForeign : Bool} (hsession : session.pid.getD 0 = pid)
    (hw : Witnessed env session h pid wrapper ownerChain pidForeign) (panes : List MuxSession)
    (hpanes : ∀ z ∈ panes, ∃ d l, Asked h (.list d false) (some l) ∧ z ∈ l) :
    Ensures (Allowed env session) h (resolveLive env.canonicalDir pid ownerChain panes)
      fun target h' => ∀ t, target = some t → Resolved env session h' t := by
  induction panes generalizing h with
  | nil => exact fun t ht => nomatch ht
  | cons pane panes ih =>
      have hdead : Ensures (Allowed env session) h
          (if 0 < pane.pid then isPidDead pane.pid else pure false : Reap Bool) fun dead h' =>
            (dead = true → Latest h' (.isAlive pane.pid) false) ∧ Since ResolveAsks h h' := by
        split
        next hpos =>
          unfold isPidDead isPidAlive
          rw [if_neg (Int32.not_le.mpr hpos)]
          refine ⟨trivial, fun alive => ⟨fun hdead => ?_, since_snoc trivial⟩⟩
          cases alive with
          | true => cases hdead
          | false => exact latest_snoc
        next => exact ⟨fun hdead => Bool.noConfusion hdead, .refl⟩
      refine hdead.bind fun dead h' hpre hknown => ?_
      obtain ⟨hdead, hsince⟩ := hknown
      obtain ⟨d, l, hlisted, hz⟩ := hpanes pane List.mem_cons_self
      split
      next hmatch =>
        rintro t ⟨⟩
        refine ⟨fun _ name dir hname hdir => ?_, fun hpos => absurd hpos Int32.lt_irrefl,
          fun hpos => absurd hpos Int32.lt_irrefl⟩
        cases hname
        cases hdir
        refine ⟨d, false, l, pane, hlisted.append hpre, hz, rfl, rfl, ?_⟩
        simp only [Bool.or_eq_true, Bool.and_eq_true, decide_eq_true_eq, beq_iff_eq,
          List.contains_iff_mem] at hmatch
        rcases hmatch with (⟨hpid, hsame⟩ | ⟨-, hchain⟩) | hgone
        · refine .inr (.inl ?_)
          rw [hsame]
          exact recorded_of_pos hsession hpid
        · obtain ⟨hours, q, table, hrecorded, hasked, hmem⟩ := hw.chain pane.pid hchain
          exact .inr (.inr (.inl ⟨hours.append hpre, q, table, hrecorded, hasked.append hpre, hmem⟩))
        · exact .inr (.inr (.inr (hdead hgone)))
      next =>
        refine ih (hw.append hsince fun _ hq => hq) fun z hz => ?_
        obtain ⟨d, l, hl, hzl⟩ := hpanes z (List.mem_cons_of_mem pane hz)
        exact ⟨d, l, hl.append hpre, hzl⟩

theorem ensures_resolveZmxTarget {pid : Int64} {wrapper : Option ZmxWrapper}
    {ownerChain : List Int32} {pidForeign : Bool} {liveList rawList : List MuxSession}
    (hsession : session.pid.getD 0 = pid)
    (hw : Witnessed env session h pid wrapper ownerChain pidForeign)
    (hlive : ∀ z ∈ liveList, ∃ d l, Asked h (.list d false) (some l) ∧ z ∈ l)
    (hraw : ∀ z ∈ rawList, ∃ d l, Asked h (.list d true) (some l) ∧ z ∈ l) :
    Ensures (Allowed env session) h
      (resolveZmxTarget session.lookupKey pid env.canonicalDir liveList rawList wrapper ownerChain)
      fun target h' => Resolved env session h' target := by
  have hcandidates : ∀ z ∈ (if session.lookupKey.isEmpty then []
      else liveList.filter fun z => eqIgnoreAsciiCase z.name session.lookupKey),
      ∃ d l, Asked h (.list d false) (some l) ∧ z ∈ l := by
    intro z hz
    split at hz
    · cases hz
    · exact hlive z (List.mem_of_mem_filter hz)
  refine ((ensures_resolveLive hsession hw _ hcandidates).since (only_resolveLive _)).bind
    fun live h' _ hknown => ?_
  obtain ⟨hfound, hsince⟩ := hknown
  have hw' := hw.append hsince fun _ hq => hq
  cases live with
  | some t => exact hfound t rfl
  | none =>
      cases hwrapper : (if 0 < pid then wrapper else none) with
      | some w =>
          have hsome : wrapper = some w := by
            split at hwrapper
            · exact hwrapper
            · cases hwrapper
          exact ⟨fun hno => Bool.noConfusion hno, fun _ _ => hw'.wrapper w hsome,
            fun _ hno => Bool.noConfusion hno⟩
      | none =>
          cases hended : (if session.lookupKey.isEmpty then none
              else rawList.find? fun z =>
                eqIgnoreAsciiCase z.name session.lookupKey && decide (0 < z.pid) &&
                  !isAttachable z) with
          | none =>
              exact ⟨fun _ _ _ hname => (nomatch hname), fun hpos => absurd hpos Int32.lt_irrefl,
                fun hpos => absurd hpos Int32.lt_irrefl⟩
          | some z =>
              split at hended
              · cases hended
              obtain ⟨d, l, hl, hzl⟩ := hraw z (List.mem_of_find?_eq_some hended)
              have hz := List.find?_some hended
              simp only [Bool.and_eq_true, Bool.not_eq_true'] at hz
              refine ⟨fun _ name dir hname hdir => ?_, fun _ hno => Bool.noConfusion hno,
                fun _ _ => ⟨z.name, rfl, hz.1.1⟩⟩
              cases hname
              cases hdir
              exact ⟨d, true, l, z, hl.append hsince.isPrefix, hzl, rfl, rfl, .inl hz.2⟩

def GuardAsks : Query → Prop
  | .cmdline _ => True
  | _ => False

theorem ensures_guardWrapper {target : ZmxReapTarget} (htarget : Resolved env session h target) :
    Ensures (Allowed env session) h (guardWrapper target) fun target h' =>
      TargetOk env session h' target := by
  unfold guardWrapper
  split
  next hguard =>
    obtain ⟨hpos, hconfirmed⟩ := hguard
    rw [Bool.not_eq_true'] at hconfirmed
    obtain ⟨name, hname, hkey⟩ := htarget.confirmed hpos hconfirmed
    rw [realCmdlineProbe_toInt64 hpos]
    refine ⟨trivial, fun cmdline => ?_⟩
    have hpane : ∀ n d, target.zmxName = some n → target.zmxDir = some d →
        PaneOk env session (h ++ [⟨.cmdline target.wrapperPid, cmdline⟩]) d n := fun n d hn hd =>
      (htarget.pane hconfirmed n d hn hd).since (since_snoc (P := GuardAsks) trivial) fun _ hq => hq
    change TargetOk env session _ (if _ then _ else _)
    by_cases hallowed : wrapperKillAllowed cmdline (target.zmxName.getD "") = true
    · rw [if_pos hallowed]
      refine ⟨fun _ => hpane, fun _ => .inr ?_⟩
      rw [hname, Option.getD_some] at hallowed
      cases cmdline with
      | none => cases hallowed
      | some cmd => exact ⟨cmd, name, latest_snoc, hallowed, hkey⟩
    · rw [if_neg hallowed]
      exact ⟨fun _ => hpane, fun hpos => absurd hpos Int32.lt_irrefl⟩
  next hnot =>
    refine ⟨htarget.pane, fun hpos => htarget.unconfirmed hpos ?_⟩
    by_contra hconfirmed
    rw [Bool.not_eq_true] at hconfirmed
    exact hnot ⟨hpos, by rw [hconfirmed]; rfl⟩

/-! ### The destructive steps -/

theorem ensures_quiet {α : Type} {m : Reap α} (hm : Only Quiet m) :
    Ensures (Allowed env session) h m fun _ h' => Since Quiet h h' :=
  hm.ensures fun _ _ _ hq => allowed_of_quiet hq

theorem quiet_wrapperAlive (target : ZmxReapTarget) : Only Quiet (wrapperAlive target) := by
  unfold wrapperAlive
  split
  · exact only_isPidAlive trivial
  · trivial

theorem quiet_verifyStillThere (target : ZmxReapTarget) (zmxName : String) (n : Nat) :
    Only Quiet (verifyStillThere env target zmxName n) := by
  induction n with
  | zero => trivial
  | succ n ih =>
      refine (only_scanAllDirs (fun _ => trivial) env.dirs).bind fun listed => ?_
      refine (quiet_wrapperAlive target).bind fun alive => ?_
      split
      · exact ih
      · trivial

theorem quiet_reapVerify (target : ZmxReapTarget) : Only Quiet (reapVerify env session target) := by
  have henv : Only Quiet (if ((session.name.or target.zmxName).getD "").isEmpty then pure ()
      else ask (.removeEnvFile ((session.name.or target.zmxName).getD "")) : Reap Unit) := by
    split
    · trivial
    · exact only_query.mpr trivial
  refine henv.bind fun _ => ?_
  dsimp only
  split
  · trivial
  · exact (only_scanAllDirs (fun _ => trivial) env.dirs).bind fun _ => trivial

theorem ensures_reapZmx {target : ZmxReapTarget} (htarget : TargetOk env session h target) :
    Ensures (Allowed env session) h (reapZmx env target) fun _ _ => True := by
  unfold reapZmx
  split
  next => trivial
  next zmxName hname =>
    have hpane : Ensures (Allowed env session) h (killPane target zmxName) fun _ h' =>
        Since (fun q => ∃ dir name, q = .muxKill dir name) h h' := by
      unfold killPane
      split
      next dir hconfirmed hdir =>
        refine ⟨htarget.pane hconfirmed zmxName dir hname hdir, fun code => ?_⟩
        change Since (fun q => ∃ dir name, q = Query.muxKill dir name) h _
        exact since_snoc ⟨dir, zmxName, rfl⟩
      next =>
        change Since (fun q => ∃ dir name, q = Query.muxKill dir name) h h
        exact .refl
    refine hpane.bind fun code h₁ _ hsince => ?_
    have hwrapper : Ensures (Allowed env session) h₁
        (if 0 < target.wrapperPid then killPid target.wrapperPid else pure true : Reap Bool)
        fun _ _ => True := by
      split
      next hpos =>
        refine (ensures_killPid fun h' sig hladder => .inr ?_).mono fun _ _ _ _ => trivial
        have hok : WrapperOk env session h₁ target.wrapperPid :=
          (htarget.wrapper hpos).since hsince fun p ⟨_, _, heq⟩ => Query.noConfusion heq
        exact hok.since hladder fun _ hq => hq
      next => trivial
    refine hwrapper.bind fun _ h₂ _ _ => ?_
    refine (ensures_quiet (quiet_verifyStillThere target zmxName 12)).bind fun there h₃ _ _ => ?_
    split
    · exact (ensures_quiet (quiet_wrapperAlive target)).bind fun _ _ _ _ => trivial
    · trivial

/-- The recorded process is signalled under its own pid, and only if it is not foreign. -/
theorem ensures_reapPid {pid : Int64} {pidForeign : Bool} (hsession : session.pid.getD 0 = pid)
    (hfits : pidFits pid = true) (hgate : Gated env session h pid pidForeign) :
    Ensures (Allowed env session) h (reapPid pid pidForeign) fun _ _ => True := by
  unfold reapPid
  split
  next hpid =>
    cases pidForeign with
    | true =>
        refine (ensures_quiet (only_isPidAlive trivial)).bind fun alive _ _ _ => ?_
        trivial
    | false =>
        have hkill : Ensures (Allowed env session) h (killPid pid.toInt32) fun _ _ => True := by
          by_cases hnarrow : 0 < pid.toInt32
          · refine (ensures_killPid fun h' sig hladder => .inl ?_).mono fun _ _ _ _ => trivial
            refine ⟨(hgate.ours rfl hpid hnarrow).append hladder.isPrefix, ?_⟩
            rw [toInt64_toInt32 hfits hpid hnarrow]
            exact recorded_of_pos hsession hpid
          · unfold killPid
            rw [if_pos (Int32.not_lt.mp hnarrow)]
            trivial
        exact hkill.bind fun _ _ _ _ => trivial
  next => trivial

theorem ensures_reapVictims {victims : List (Int32 × Int64)}
    (hvictims : Victims env session h victims) (hnodup : (victims.map Prod.fst).Nodup) :
    Ensures (Allowed env session) h (reapVictims victims) fun _ _ => True := by
  unfold reapVictims
  split
  · trivial
  · exact (ensures_killPidTree hvictims hnodup).bind fun _ _ _ _ => trivial

theorem ensures_writeTombstone {pid : Int64} {captured : Option RegistryEntry}
    (hok : ∀ h', Since (fun q => q = .nowMs) h h' → TombstoneOk env session h' pid) :
    Ensures (Allowed env session) h (writeTombstone session pid captured) fun _ _ => True := by
  cases captured with
  | some entry => exact ⟨hok h .refl, fun _ => trivial⟩
  | none =>
      refine ⟨trivial, fun now => ⟨trivial, fun updated => ⟨hok _ ?_, fun _ => trivial⟩⟩⟩
      have hfirst : Since (fun q => q = .nowMs) h (h ++ [⟨.nowMs, now⟩]) := since_snoc rfl
      exact hfirst.trans (since_snoc rfl)

theorem ensures_reapTombstone {pid : Int64} {pidForeign : Bool} {captured : Option RegistryEntry}
    (hsession : session.pid.getD 0 = pid) (hgate : Gated env session h pid pidForeign) :
    Ensures (Allowed env session) h (reapTombstone session pid pidForeign captured)
      fun _ _ => True := by
  unfold reapTombstone
  split
  next hpid =>
    have hrecorded := recorded_of_pos hsession hpid
    have hlook : Ensures (Allowed env session) h
        (if pidForeign then pure false else isPidAlive pid.toInt32 : Reap Bool) fun alive h' =>
          alive = false → Foreign env session h' ∨
            ∀ p : Int32, p.toInt64 = pid → Latest h' (.isAlive p) false := by
      cases pidForeign with
      | true => exact fun _ => .inl (hgate.foreign rfl)
      | false =>
          change Ensures _ _ (isPidAlive pid.toInt32) _
          unfold isPidAlive
          have hsame : ∀ p : Int32, p.toInt64 = pid → p = pid.toInt32 := by
            rintro p rfl
            exact (Int32.toInt32_toInt64 p).symm
          split
          next hnone =>
            -- a pid that is narrowed to no process is of no process
            refine fun _ => .inr fun p hp => ?_
            have hpos : 0 < p := by
              rw [Int32.lt_iff_toInt_lt, ← Int32.toInt_toInt64 p, hp]
              exact Int64.lt_iff_toInt_lt.mp hpid
            rw [hsame p hp] at hpos
            exact absurd hpos (Int32.not_lt.mpr hnone)
          next =>
            refine ⟨trivial, fun alive hdead => .inr fun p hp => ?_⟩
            rw [hsame p hp]
            exact hdead ▸ latest_snoc
    refine hlook.bind fun alive h' _ hdead => ?_
    cases alive with
    | true => trivial
    | false =>
        refine (ensures_writeTombstone fun h'' hsince => ⟨hrecorded, ?_⟩).bind fun _ _ _ _ => trivial
        rcases hdead rfl with hforeign | hgone
        · exact .inl (hforeign.append hsince.isPrefix)
        · exact .inr fun p hp => (hgone p hp).since hsince fun heq => Query.noConfusion heq
  next => trivial

theorem ensures_reapTarget {pid : Int64} {pidForeign : Bool} {victims : List (Int32 × Int64)}
    {target : ZmxReapTarget} (hsession : session.pid.getD 0 = pid) (hfits : pidFits pid = true)
    (hgate : Gated env session h pid pidForeign) (hvictims : Victims env session h victims)
    (hnodup : (victims.map Prod.fst).Nodup) (htarget : TargetOk env session h target) :
    Ensures (Allowed env session) h (reapTarget env session pid pidForeign victims target)
      fun _ _ => True := by
  have hcapture : Ensures (Allowed env session) h
      (if 0 < pid then ask (.readEntry pid) else pure none : Reap (Option RegistryEntry))
      fun _ h' => Since (fun q => q = .readEntry pid) h h' := by
    split
    · refine ⟨trivial, fun captured => ?_⟩
      change Since (fun q => q = .readEntry pid) h _
      exact since_snoc rfl
    · change Since (fun q => q = .readEntry pid) h h
      exact .refl
  refine hcapture.bind fun captured h₁ hpre₁ hsince => ?_
  have htarget₁ : TargetOk env session h₁ target :=
    ⟨fun hconfirmed name dir hname hdir => (htarget.pane hconfirmed name dir hname hdir).since hsince
        fun _ heq => Query.noConfusion heq,
      fun hpos => (htarget.wrapper hpos).since hsince fun _ heq => Query.noConfusion heq⟩
  refine (ensures_reapZmx htarget₁).bind fun paneFailures h₂ hpre₂ _ => ?_
  have hgate₂ := (hgate.append hpre₁).append hpre₂
  refine (ensures_reapPid hsession hfits hgate₂).bind fun reaped h₃ hpre₃ _ => ?_
  have hvictims₃ := ((hvictims.append hpre₁).append hpre₂).append hpre₃
  refine (ensures_reapVictims hvictims₃ hnodup).bind fun victimFailures h₄ hpre₄ _ => ?_
  have hgate₄ := (hgate₂.append hpre₃).append hpre₄
  refine (ensures_reapTombstone hsession hgate₄).bind fun tombstoned h₅ _ _ => ?_
  dsimp only
  have hverify : ∀ failures : List String, Ensures (Allowed env session) h₅
      (if failures = [] then reapVerify env session target else pure none : Reap (Option String))
      fun _ _ => True := by
    intro failures
    split
    · exact (ensures_quiet (quiet_reapVerify target)).mono fun _ _ _ _ => trivial
    · trivial
  exact (hverify _).bind fun _ _ _ _ => trivial

theorem ensures_reapPaneSession (hfits : pidFits (session.pid.getD 0) = true) :
    Ensures (Allowed env session) [] (reapPaneSession env session) fun _ _ => True := by
  refine (ensures_gather rfl hfits).bind fun g h₁ _ hg => ?_
  obtain ⟨hsame, hw⟩ := hg.witnessed
  dsimp only
  refine ((hg.descendants).since (only_stampVictims _)).bind fun victims h₂ hpre₂ hvictims => ?_
  obtain ⟨⟨hvictims, hnodup⟩, hsince₂⟩ := hvictims
  have hw₂ := hw.append hsince₂ fun p ⟨_, _, heq⟩ => Query.noConfusion heq
  rw [hsame]
  have hlisted : ∀ raw, ∀ z : MuxSession, (∃ d l, Asked h₁ (.list d raw) (some l) ∧ z ∈ l) →
      ∃ d l, Asked h₂ (.list d raw) (some l) ∧ z ∈ l :=
    fun raw z ⟨d, l, hl, hz⟩ => ⟨d, l, hl.append hpre₂, hz⟩
  refine (ensures_resolveZmxTarget rfl hw₂ (fun z hz => hlisted false z (hg.live z hz))
    fun z hz => hlisted true z (hg.raw z hz)).bind fun target h₃ hpre₃ htarget => ?_
  refine (ensures_guardWrapper htarget).bind fun target h₄ hpre₄ htarget => ?_
  split
  · have hpre := hpre₃.trans hpre₄
    exact ensures_reapTarget rfl hfits (hw₂.toGated.append hpre) (hvictims.append hpre) hnodup htarget
  · trivial

/-! ### Pids that are too large -/

/-- A system without panes, in which a process is alive and nothing is known of it. -/
def strangerWorld : (q : Query) → Answer q
  | .isAlive _ | .signal .. => true
  | .isZombie _ | .deadlinePassed => false
  | .psRows => none
  | .list .. => none
  | .cmdline _ => none
  | .procStart _ => none
  | .nowMs => 0
  | .readEntry _ => none
  | .muxKill .. => none
  | .tombstone .. => ()
  | .removeEnvFile _ => ()

/-- There, no process may be signalled for a pid that no process can have. -/
theorem not_allowed_signal {p : Int32} {sig : Signal}
    (hworld : ∀ e ∈ h, e.answer = strangerWorld e.question)
    (hpid : ∀ q : Int32, session.pid ≠ some q.toInt64) :
    ¬Allowed env session h (.signal .killPid p sig) := by
  rintro (⟨-, hsame⟩ | ⟨-, q, -, -, hsame, -⟩ | ⟨cmd, name, hcmd, -⟩)
  · exact hpid p hsame
  · exact hpid q hsame
  · obtain ⟨before, after, rfl, -⟩ := hcmd
    have hnone := hworld ⟨.cmdline p, some cmd⟩ (by simp)
    cases hnone

theorem answers_scanAllDirs (raw : Bool) (dirs : List String) :
    (answers strangerWorld (scanAllDirs raw dirs)).2 = [] := by
  induction dirs with
  | nil => rfl
  | cons dir dirs ih =>
      change (answers strangerWorld (scanAllDirs raw dirs >>= _)).2 = []
      rw [answers_bind_snd, ih]
      rfl

theorem world_append {α : Type} {m : Reap α} (hworld : ∀ e ∈ h, e.answer = strangerWorld e.question) :
    ∀ e ∈ h ++ (answers strangerWorld m).1, e.answer = strangerWorld e.question := by
  intro e he
  rcases List.mem_append.mp he with he | he
  · exact hworld e he
  · exact answer_of_mem_answers he

/-- What is gathered there of a pid that is narrowed to the pid of a process. -/
def strangerSight : Gathered where
  table := none
  liveList := []
  rawList := []
  alive := true
  cmdline := none
  started := none

theorem answers_gather {pid : Int64} (hpid : 0 < pid) (hnarrow : 0 < pid.toInt32) :
    (answers strangerWorld (gather env pid)).2 = strangerSight := by
  have hcmdline : (answers strangerWorld (realCmdlineProbe pid)).2 = none := by
    unfold realCmdlineProbe
    split <;> rfl
  have hprobe : (answers strangerWorld (probePid pid)).2 = (true, none, none) := by
    unfold probePid
    rw [if_pos hpid, isPidAlive, if_neg (Int32.not_le.mpr hnarrow), answers_bind_snd]
    change (answers strangerWorld (realCmdlineProbe pid >>= _)).2 = _
    rw [answers_bind_snd, hcmdline]
    change (answers strangerWorld (procStartMs pid.toInt32 >>= _)).2 = _
    rw [procStartMs, if_neg (Int32.not_le.mpr hnarrow)]
    rfl
  unfold gather
  rw [if_pos hpid, answers_bind_snd, answers_bind_snd, answers_scanAllDirs, answers_bind_snd,
    answers_scanAllDirs, answers_bind_snd, hprobe]
  rfl

theorem witnesses_strangerSight (env : ReapEnv) (session : Session) (pid : Int64) :
    strangerSight.witnesses env session pid = (pid, none, [], false) := by
  have hours : pidIsForeign true none env.sessionBin none session.startedAtMs = false := rfl
  rw [Gathered.witnesses, gatePidWitnesses, if_neg]
  · rfl
  · rintro ⟨-, -, hforeign⟩
    rw [show strangerSight.cmdline = none from rfl] at hforeign
    cases hours ▸ hforeign

theorem answers_resolveZmxTarget (lookupKey : String) (pid : Int64) (canonicalDir : String) :
    (answers strangerWorld (resolveZmxTarget lookupKey pid canonicalDir [] [] none [])).2 =
      { zmxName := none, zmxDir := some canonicalDir } := by
  have hpanes : (if lookupKey.isEmpty then [] else
      List.filter (fun z : MuxSession => eqIgnoreAsciiCase z.name lookupKey) []) = [] := by
    split <;> rfl
  have hended : (if lookupKey.isEmpty then none else
      List.find? (fun z : MuxSession => eqIgnoreAsciiCase z.name lookupKey && decide (0 < z.pid) &&
        !isAttachable z) []) = none := by
    split <;> rfl
  unfold resolveZmxTarget
  rw [hpanes, hended, ite_self]
  rfl

/-- There, the process that a recorded pid is narrowed to is signalled. -/
theorem not_ensures_reapPid {post : List String × List String → History → Prop} {pid : Int64}
    (hpid : 0 < pid) (hnarrow : 0 < pid.toInt32)
    (hworld : ∀ e ∈ h, e.answer = strangerWorld e.question)
    (hnone : ∀ q : Int32, session.pid ≠ some q.toInt64) :
    ¬Ensures (Allowed env session) h (reapPid pid false) post := by
  intro hreap
  rw [reapPid, if_pos hpid] at hreap
  have hkill := ensures_bind.mp hreap
  rw [killPid, isPidAlive, if_neg (Int32.not_le.mpr hnarrow), if_neg (Int32.not_le.mpr hnarrow)] at hkill
  have hsignal := ((ensures_bind.mp hkill).answers strangerWorld).1
  exact not_allowed_signal (world_append hworld) hnone hsignal

theorem not_ensures_reapTarget {post : PaneReapOutcome → History → Prop} {pid : Int64}
    {victims : List (Int32 × Int64)} {target : ZmxReapTarget} (hpid : 0 < pid)
    (hnarrow : 0 < pid.toInt32) (hworld : ∀ e ∈ h, e.answer = strangerWorld e.question)
    (hnone : ∀ q : Int32, session.pid ≠ some q.toInt64) :
    ¬Ensures (Allowed env session) h (reapTarget env session pid false victims target) post := by
  intro hreap
  have hentry := (ensures_bind.mp hreap).answers strangerWorld
  have hpane := (ensures_bind.mp hentry).answers strangerWorld
  exact not_ensures_reapPid hpid hnarrow (world_append (world_append hworld)) hnone
    (ensures_bind.mp hpane)

/-- A pid that is narrowed to another's leads to a signal to the other process. -/
theorem not_ensures_of_narrowed (hfits : ¬pidFits (session.pid.getD 0) = true) :
    ¬Ensures (Allowed env session) [] (reapPaneSession env session) fun _ _ => True := by
  intro hreap
  obtain ⟨⟨hpid, hnarrow⟩, hother⟩ : (0 < session.pid.getD 0 ∧ 0 < (session.pid.getD 0).toInt32) ∧
      (session.pid.getD 0).toInt32.toInt64 ≠ session.pid.getD 0 := by
    simpa [pidFits, Int64.not_le, Int32.not_le] using hfits
  have hnone : ∀ q : Int32, session.pid ≠ some q.toInt64 := by
    intro q hq
    rw [hq, Option.getD_some, Int32.toInt32_toInt64] at hother
    exact hother rfl
  -- the probes and the resolver, up to the first step that destroys
  have hgather := (ensures_bind.mp hreap).answers strangerWorld
  rw [answers_gather hpid hnarrow, witnesses_strangerSight] at hgather
  have hstamped := (ensures_bind.mp hgather).answers strangerWorld
  have htarget := (ensures_bind.mp hstamped).answers strangerWorld
  have hresolved : (answers strangerWorld (resolveZmxTarget session.lookupKey (session.pid.getD 0)
      env.canonicalDir strangerSight.liveList strangerSight.rawList none [])).2 =
      { zmxName := none, zmxDir := some env.canonicalDir } :=
    answers_resolveZmxTarget session.lookupKey (session.pid.getD 0) env.canonicalDir
  rw [hresolved] at htarget
  have hguarded := (ensures_bind.mp htarget).answers strangerWorld
  have hhave : haveKillTarget { zmxName := none, zmxDir := some env.canonicalDir }
      (session.pid.getD 0) = true := by
    rw [haveKillTarget, Bool.or_eq_true, decide_eq_true_eq]
    exact .inr hpid
  change Ensures _ _ (if haveKillTarget { zmxName := none, zmxDir := some env.canonicalDir }
    (session.pid.getD 0) = true then _ else _) _ at hguarded
  rw [if_pos hhave] at hguarded
  refine not_ensures_reapTarget hpid hnarrow ?_ hnone hguarded
  exact world_append (world_append (world_append (world_append fun e he => by cases he)))

def narrowedRow : Session where
  pid := some 4294967303
  whichBranch := .liveRegistry

end QuorumDispatch.Kill
