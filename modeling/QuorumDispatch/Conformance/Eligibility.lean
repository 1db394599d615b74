import Mathlib.Data.List.Induction
import QuorumDispatch.Conformance.Designations
import QuorumDispatch.Conformance.JournalCheck

/-!
What one more entry changes in the lookups of a replay: only a completion adds a run that counts,
and only an activation takes runs away. The rest of a journal's growth leaves its replay alone.
-/

namespace QuorumDispatch.Conformance

namespace AuthorityJournal

structure Extends (xs : AuthorityJournal) (e : JournalEntry) : Prop where
  checks : xs.Checks
  before : ∀ t ∈ xs, t.ordinal < e.ordinal
  accepts : xs.Accepts e.ordinal e.body
  startsOpen : xs.StartsOpen e.body

variable {xs : AuthorityJournal} {e : JournalEntry} {lane : Lane} {run box : String} {b o p : Nat}

theorem Checks.extends (h : Checks (xs ++ [e])) : xs.Extends e := by
  obtain ⟨hchecks, hbefore, haccepts, hopen⟩ := checks_snoc_iff.mp h
  exact ⟨hchecks, hbefore, haccepts, hopen⟩

/-! ### What belongs to a run -/

theorem mem_runEntries {entry : RunEntry} : entry ∈ xs.runEntries ↔ ∃ t ∈ xs, t.body = .run entry := by
  rw [runEntries, List.mem_filterMap]
  refine exists_congr fun t => and_congr_right fun _ => ?_
  cases t.body <;> simp [JournalBody.run?]

theorem runEntries_snoc (xs : AuthorityJournal) (e : JournalEntry) :
    runEntries (xs ++ [e]) = xs.runEntries ++ e.body.run?.toList := by
  rw [runEntries, List.filterMap_append]
  cases hb : e.body.run? <;> simp [runEntries, hb]

theorem Checks.sequence_lt (h : xs.Checks) (hbefore : ∀ t ∈ xs, t.ordinal < e.ordinal)
    {entry : RunEntry} (hentry : entry ∈ xs.runEntries) : entry.sequence < e.ordinal := by
  obtain ⟨t, ht, hbody⟩ := mem_runEntries.mp hentry
  rw [sequence_of_check h ht hbody]
  exact hbefore t ht

theorem Checks.commissioned (h : xs.Checks)
    (hevent : (xs.terminalEvent run).isSome = true ∨ xs.hasStartEvent run = true) :
    (xs.runEntry run).isSome = true := by
  induction xs using List.reverseRecOn with
  | nil => cases hevent <;> contradiction
  | append_singleton xs e ih =>
      have hextends := h.extends
      rw [runEntry_append, Option.isSome_or, Bool.or_eq_true]
      rw [terminalEvent_append, terminalEvent_singleton, hasStartEvent_append,
        hasStartEvent_singleton, Option.isSome_or, Bool.or_eq_true, Bool.or_eq_true] at hevent
      have haccepts := hextends.accepts
      left
      rcases hevent with (hold | hlast) | hold | hlast
      · exact ih hextends.checks (.inl hold)
      · cases hb : e.body with
        | terminal t =>
            rw [hb] at hlast haccepts
            obtain ⟨entry, hentry⟩ := haccepts.2.1
            obtain rfl : t.run = run := by
              simpa [JournalBody.terminal?, Option.isSome_filter] using hlast
            rw [hentry]
            rfl
        | _ => rw [hb] at hlast; cases hlast
      · exact ih hextends.checks (.inr hold)
      · cases hb : e.body with
        | start s =>
            rw [hb] at hlast haccepts
            obtain ⟨entry, hentry, -⟩ := haccepts.1
            obtain rfl : s.run = run := by simpa [JournalBody.start?] using hlast
            rw [hentry]
            rfl
        | _ => rw [hb] at hlast; cases hlast

theorem terminalOrdinal_append : terminalOrdinal (xs ++ [e]) run =
    (xs.terminalOrdinal run).or (terminalOrdinal [e] run) :=
  List.findSome?_append

theorem terminalOrdinal_singleton : terminalOrdinal [e] run =
    (e.body.terminal?.filter (·.run == run)).map fun t => (e.ordinal, t.terminal) := by
  simp only [terminalOrdinal, List.findSome?_cons, List.findSome?_nil]
  cases e.body.terminal?.filter (·.run == run) <;> rfl

theorem isSome_terminalOrdinal : (xs.terminalOrdinal run).isSome = (xs.terminalEvent run).isSome := by
  simp [terminalOrdinal, terminalEvent, List.isSome_findSome?, Option.isSome_map]

def completes (e : JournalEntry) (run : String) : Bool :=
  match e.body with
  | .terminal ⟨r, .completed _⟩ => r == run
  | _ => false

theorem completedAt_snoc (h : xs.Extends e) : completedAt (xs ++ [e]) run =
    if completes e run then some e.ordinal else xs.completedAt run := by
  unfold completedAt
  rw [terminalOrdinal_append, terminalOrdinal_singleton]
  cases hb : e.body with
  | terminal t =>
      have haccepts := h.accepts
      rw [hb] at haccepts
      by_cases hrun : t.run = run
      · have hnone : xs.terminalOrdinal run = none := by
          rw [← Option.not_isSome_iff_eq_none, isSome_terminalOrdinal, ← hrun, haccepts.2.2.1]
          exact Bool.false_ne_true
        rw [hnone, Option.none_or]
        obtain ⟨r, state⟩ := t
        obtain rfl : r = run := hrun
        cases state <;> simp [JournalBody.terminal?, completes, hb, Option.filter]
      · have hother : (JournalBody.terminal t).terminal?.filter (·.run == run) = none := by
          simp [JournalBody.terminal?, hrun]
        have hnot : completes e run = false := by
          obtain ⟨r, state⟩ := t
          cases state <;> simp [completes, hb, show r ≠ run from hrun]
        rw [hother, Option.map_none, Option.or_none, hnot]
        rfl
  | _ => simp [JournalBody.terminal?, completes, hb]

/-! ### The context -/

theorem manifestDigestEffectiveAt_snoc (h : o < e.ordinal) :
    manifestDigestEffectiveAt (xs ++ [e]) o = xs.manifestDigestEffectiveAt o := by
  have hlater : ¬ e.ordinal ≤ o := Nat.not_le.mpr h
  simp [manifestDigestEffectiveAt, List.filter_append, hlater]

theorem aggregationVersionEffectiveAt_snoc (h : o < e.ordinal) :
    aggregationVersionEffectiveAt (xs ++ [e]) o = xs.aggregationVersionEffectiveAt o := by
  have hlater : ¬ e.ordinal ≤ o := Nat.not_le.mpr h
  simp [aggregationVersionEffectiveAt, List.filter_append, hlater]

theorem effectiveBoundary_snoc (hactivation : e.body.isActivation = false) :
    effectiveBoundary (xs ++ [e]) b = effectiveBoundary xs b := by
  simp [effectiveBoundary, lastContextChange, List.filter_append, hactivation]

/-! ### The runs that count -/

theorem eligible?_snoc (h : xs.Extends e) {entry : RunEntry} (hseq : entry.sequence < e.ordinal)
    (hcompletes : completes e entry.run = false) :
    eligible? (xs ++ [e]) lane box b entry = eligible? xs lane box b entry := by
  unfold eligible?
  rw [completedAt_snoc h, manifestDigestEffectiveAt_snoc hseq, aggregationVersionEffectiveAt_snoc hseq]
  simp only [hcompletes, Bool.false_eq_true, if_false]

/-- A run that is being commissioned does not count. -/
theorem eligible?_new (h : xs.Extends e) {entry : RunEntry} (hbody : e.body = .run entry) :
    eligible? (xs ++ [e]) lane box b entry = none := by
  have hnone : completedAt (xs ++ [e]) entry.run = none := by
    have hnot : completes e entry.run = false := by simp [completes, hbody]
    have haccepts := h.accepts
    rw [hbody] at haccepts
    rw [completedAt_snoc h, hnot, if_neg Bool.false_ne_true, completedAt]
    cases hord : xs.terminalOrdinal entry.run with
    | none => rfl
    | some x =>
        have hevent := isSome_terminalOrdinal.symm.trans (congrArg Option.isSome hord)
        have hrun := h.checks.commissioned (.inl hevent)
        rw [haccepts.1] at hrun
        cases hrun
  unfold eligible?
  rw [hnone]
  split
  · rfl
  · split <;> rfl

/-! ### What changes nothing -/

/-- The entry is neither a designation of the lane, nor an activation, nor the completion of an evidence run
of the lane. -/
def Inert (j : AuthorityJournal) (lane : Lane) (e : JournalEntry) : Prop :=
  match e.body with
  | .designation d => d.lane ≠ lane
  | .contextActivation _ => False
  | .terminal ⟨run, .completed _⟩ =>
      ∀ entry ∈ j.runEntries, entry.run = run → entry.runKind = .evidence → lane ∉ entry.laneScope
  | _ => True

theorem eligibleRuns_snoc (h : Checks (xs ++ [e])) (hinert : Inert (xs ++ [e]) lane e) :
    eligibleRuns (xs ++ [e]) lane box b = eligibleRuns xs lane box b := by
  have hextends := h.extends
  have hboundary : effectiveBoundary (xs ++ [e]) b = effectiveBoundary xs b := by
    refine effectiveBoundary_snoc ?_
    unfold Inert at hinert
    cases hb : e.body <;> simp_all [JournalBody.isActivation]
  have hold : ∀ entry ∈ xs.runEntries, eligible? (xs ++ [e]) lane box (effectiveBoundary xs b) entry =
      eligible? xs lane box (effectiveBoundary xs b) entry := by
    intro entry hentry
    cases hcompletes : completes e entry.run with
    | false => exact eligible?_snoc hextends (hextends.checks.sequence_lt hextends.before hentry) hcompletes
    | true =>
        have hevidence : entry.evidenceOn lane box = false := by
          unfold completes at hcompletes
          split at hcompletes
          case h_1 r digest hb =>
            obtain rfl := beq_iff_eq.mp hcompletes
            rw [Inert, hb] at hinert
            have hmem : entry ∈ (xs ++ [e]).runEntries := by
              rw [runEntries_snoc]
              exact List.mem_append_left _ hentry
            by_cases hkind : entry.runKind = .evidence
            · simp [RunEntry.evidenceOn, hinert entry hmem rfl hkind]
            · simp [RunEntry.evidenceOn, hkind]
          case h_2 => cases hcompletes
        rw [eligible?, if_pos hevidence, eligible?, if_pos hevidence]
  have hnew : e.body.run?.toList.filterMap
      (eligible? (xs ++ [e]) lane box (effectiveBoundary xs b)) = [] := by
    cases hb : e.body with
    | run entry => simp [JournalBody.run?, eligible?_new hextends hb]
    | _ => rfl
  rw [eligibleRuns, eligibleRuns, hboundary, runEntries_snoc, List.filterMap_append, hnew, List.append_nil,
    List.filterMap_congr hold]

theorem designations_snoc (hinert : Inert (xs ++ [e]) lane e) :
    designations (xs ++ [e]) lane = xs.designations lane := by
  have hnone : (e.body.designation?.filter (·.lane == lane)).map (e.ordinal, ·) = none := by
    unfold Inert at hinert
    cases hb : e.body <;> simp_all [JournalBody.designation?]
  simp [designations, List.filterMap_append, hnone]

theorem preemptingWithdrawal_snoc (hinert : Inert (xs ++ [e]) lane e) :
    preemptingWithdrawal (xs ++ [e]) lane box b p = preemptingWithdrawal xs lane box b p := by
  unfold Inert at hinert
  rw [preemptingWithdrawal, List.any_append, ← preemptingWithdrawal]
  cases hb : e.body <;> simp_all [JournalBody.designation?]

theorem derivedPromotion_snoc (h : Checks (xs ++ [e])) (hinert : Inert (xs ++ [e]) lane e) (window : Nat) :
    derivedPromotion (xs ++ [e]) lane box b window = derivedPromotion xs lane box b window := by
  simp only [derivedPromotion, eligibleRuns_snoc h hinert, preemptingWithdrawal_snoc hinert]

theorem quietWindow_snoc (h : Checks (xs ++ [e])) (ho : o < e.ordinal) :
    quietWindow (xs ++ [e]) lane box o = quietWindow xs lane box o := by
  have hlater : ¬ e.ordinal < o := Nat.not_lt.mpr ho.le
  have hextends := h.extends
  have hnew : ∀ entry ∈ e.body.run?.toList, startOrdinal (xs ++ [e]) entry.run = none := by
    intro entry hentry
    have haccepts := hextends.accepts
    cases hb : e.body with
    | run r =>
        rw [hb] at hentry haccepts
        obtain rfl : entry = r := by simpa [JournalBody.run?] using hentry
        have hnone : xs.startOrdinal entry.run = none := by
          rw [← Option.not_isSome_iff_eq_none, isSome_startOrdinal]
          intro hstarted
          have hrun := hextends.checks.commissioned (.inr hstarted)
          rw [haccepts.1] at hrun
          cases hrun
        rw [startOrdinal_append, hnone, startOrdinal_singleton, hb]
        rfl
    | _ => rw [hb] at hentry; cases hentry
  have hnewall : (e.body.run?.toList.all fun entry => !entry.evidenceOn lane box ||
      (startOrdinal (xs ++ [e]) entry.run).all fun start =>
        !decide (start < o) || (terminalOrdinal (xs ++ [e]) entry.run).any (·.1 < o)) = true := by
    rw [List.all_eq_true]
    intro entry hentry
    rw [hnew entry hentry, Option.all_none, Bool.or_true]
  rw [quietWindow, runEntries_snoc, List.all_append, hnewall, Bool.and_true, quietWindow]
  refine congrArg (fun f => xs.runEntries.all f) (funext fun entry => ?_)
  rw [startOrdinal_append, startOrdinal_singleton, terminalOrdinal_append, terminalOrdinal_singleton]
  cases xs.startOrdinal entry.run with
  | none => cases e.body.start?.filter (·.run == entry.run) <;> simp [hlater]
  | some start =>
      cases xs.terminalOrdinal entry.run with
      | none => cases e.body.terminal?.filter (·.run == entry.run) <;> simp [hlater]
      | some t => simp

theorem replayDesignations_snoc (h : Checks (xs ++ [e])) (hinert : Inert (xs ++ [e]) lane e) (window : Nat) :
    replayDesignations (xs ++ [e]) lane window = replayDesignations xs lane window := by
  rw [replayDesignations, designations_snoc hinert, replayDesignations]
  refine List.foldl_ext _ _ _ fun r ev hev => ?_
  have hbefore : ev.1 < e.ordinal := by
    obtain ⟨t, ht, hdesignation⟩ := List.mem_filterMap.mp (List.mem_mergeSort.mp hev)
    obtain ⟨d, -, rfl⟩ := Option.map_eq_some_iff.mp hdesignation
    exact h.extends.before t ht
  obtain ⟨ord, ev⟩ := ev
  have hpromotion (r : DesignationReplay) :
      r.derivePromotion (xs ++ [e]) lane window ord ev.boxId = r.derivePromotion xs lane window ord ev.boxId := by
    simp only [DesignationReplay.derivePromotion, eligibleRuns_snoc h hinert, derivedPromotion_snoc h hinert]
  simp only [DesignationReplay.step, DesignationReplay.pendingReplacement, DesignationReplay.withdrawal, hpromotion,
    quietWindow_snoc h hbefore]

theorem Inert.mono {j : AuthorityJournal} (h : Inert j lane e) (hsub : ∀ entry ∈ xs.runEntries, entry ∈ j.runEntries) :
    Inert xs lane e := by
  cases hb : e.body with
  | terminal t =>
      rw [Inert, hb] at h ⊢
      obtain ⟨run, state⟩ := t
      cases state with
      | completed digest => exact fun entry hentry => h entry (hsub entry hentry)
      | _ => trivial
  | _ => rw [Inert, hb] at h ⊢; exact h

/-- **What is decided stays.** Entries behind a journal change nothing that its replay says of a lane, as long
as they are no designations of the lane, no activations and no completions of evidence runs of the lane. -/
theorem replayDesignations_append {ys : AuthorityJournal} (h : integrityCheck (xs ++ ys) = .ok ())
    (hinert : ∀ e ∈ ys, Inert (xs ++ ys) lane e) (window : Nat) :
    replayDesignations (xs ++ ys) lane window = replayDesignations xs lane window := by
  rw [integrityCheck_eq_ok] at h
  induction ys using List.reverseRecOn with
  | nil => rw [List.append_nil]
  | append_singleton ys e ih =>
      rw [← List.append_assoc] at h hinert ⊢
      rw [replayDesignations_snoc h (hinert e (by simp))]
      refine ih h.extends.checks fun e' he' => (hinert e' (List.mem_append_left _ he')).mono fun entry hentry => ?_
      rw [runEntries_snoc]
      exact List.mem_append_left _ hentry

def limaDesignated : AuthorityJournal :=
  [⟨1, .designation { kind := .designate, lane := .pi, boxId := "lima", basisKind := some .greaterRunnability }⟩]

def limaRun : RunEntry where
  run := "r1"
  laneScope := {.pi}
  boxId := "lima"
  releaseCommit := "commit-abc"
  manifestDigest := "sha256:deadbeef"
  aggregationVersion := "agg-v1"
  runKind := .evidence
  sequence := 2
  commissioningIdentity := "registrar-1"
  token := "tok-1"

theorem replayDesignations_started :
    replayDesignations (limaDesignated ++ [⟨2, .run limaRun⟩, ⟨3, .start ⟨"r1", "runner-1", "nonce-1", ""⟩⟩]) .pi 1 =
      replayDesignations limaDesignated .pi 1 := by
  refine replayDesignations_append ?_ ?_ 1
  · rw [integrityCheck_eq_ok]
    unfold Checks
    decide
  · simp [Inert]

end AuthorityJournal

end QuorumDispatch.Conformance
