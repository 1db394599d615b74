import QuorumDispatch.Conformance.JournalCheck
import QuorumDispatch.Lib.Runs

/-!
The calls of the registrar against the check. A call writes one entry or none, and what the calls
can write is what passes, but for the start of a run that was disposed of before.
-/

namespace QuorumDispatch.Conformance

open Lib

def Call.body (j : AuthorityJournal) : Call → JournalBody
  | commissionRun c minted => .run (c.tuple j.nextValue minted)
  | startRunAt run runnerIdentity startedAt minted =>
      .start ⟨run, runnerIdentity, minted, startedAt⟩
  | markTerminal run terminal => .terminal ⟨run, terminal⟩
  | designate event => .designation event
  | activateContext kind => .contextActivation kind
  | publishSnapshot digest observedAt => .publicationSnapshot ⟨digest, observedAt⟩

namespace AuthorityJournal

variable {j : AuthorityJournal} {c : Call}

/-! ### One call -/

/-- **What a call does**: it writes its entry behind the journal exactly if its preconditions hold. -/
theorem apply_eq (c : Call) :
    (j.Accepts j.nextValue (c.body j) ∧ c.apply j = (true, j.append (c.body j))) ∨
      (¬ j.Accepts j.nextValue (c.body j) ∧ c.apply j = (false, j)) := by
  cases c with
  | commissionRun c minted =>
      have hnone : (j.any fun e => e.body.run?.any (·.run == c.run)) = false ↔
          j.runEntry c.run = none := by
        rw [← isSome_runEntry, Option.isSome_eq_false_iff, Option.isNone_iff_eq_none]
      simp only [Call.apply, commissionRun, Call.body, Accepts, Commission.tuple]
      split_ifs with hdup hblank htoken
      · exact .inr ⟨fun h => Bool.false_ne_true ((hnone.mpr h.1).symm.trans hdup), rfl⟩
      · exact .inr ⟨fun h => Bool.false_ne_true (h.2.1.symm.trans hblank), rfl⟩
      · exact .inr ⟨fun h => Bool.false_ne_true (h.2.2.1.symm.trans htoken), rfl⟩
      · simp only [Bool.not_eq_true] at hdup hblank htoken
        exact .inl ⟨⟨hnone.mp hdup, hblank, htoken, trivial⟩, rfl⟩
  | startRunAt run runnerIdentity startedAt minted =>
      simp only [Call.apply, startRunAt, Call.body, Accepts]
      cases hentry : j.runEntry run with
      | none =>
          refine .inr ⟨?_, rfl⟩
          rintro ⟨⟨_, hsome, _⟩, _⟩
          cases hsome
      | some entry =>
          simp only
          split_ifs with hstart hid hblank hnonce
          · exact .inr ⟨fun h => Bool.false_ne_true (h.2.1.symm.trans hstart), rfl⟩
          · refine .inr ⟨?_, rfl⟩
            rintro ⟨⟨_, hsome, hne⟩, _⟩
            cases hsome
            exact hne hid
          · exact .inr ⟨fun h => Bool.false_ne_true (h.2.2.1.symm.trans hblank), rfl⟩
          · exact .inr ⟨fun h => Bool.false_ne_true (h.2.2.2.symm.trans hnonce), rfl⟩
          · simp only [Bool.not_eq_true] at hstart hblank hnonce
            exact .inl ⟨⟨⟨entry, rfl, hid⟩, hstart, hblank, hnonce⟩, rfl⟩
  | markTerminal run terminal =>
      simp only [Call.apply, markTerminal, Call.body, Accepts]
      split_ifs with hterminal hnone hsome hprior hno
      · exact .inr ⟨fun h => Bool.false_ne_true (hterminal.symm.trans h.1), rfl⟩
      · refine .inr ⟨?_, rfl⟩
        rintro ⟨_, ⟨_, hentry⟩, _⟩
        rw [hentry] at hnone
        cases hnone
      · refine .inr ⟨fun h => ?_, rfl⟩
        rw [h.2.2.1] at hsome
        cases hsome
      · simp only [Bool.and_eq_true, Bool.not_eq_true'] at hprior
        exact .inr ⟨fun h => Bool.false_ne_true (hprior.2.symm.trans (h.2.2.2.1 hprior.1)), rfl⟩
      · simp only [Bool.and_eq_true] at hno
        exact .inr ⟨fun h => Bool.false_ne_true ((h.2.2.2.2 hno.1).symm.trans hno.2), rfl⟩
      · refine .inl ⟨⟨by simpa using hterminal, ?_, by simpa using hsome, ?_, ?_⟩, rfl⟩
        · exact Option.isSome_iff_exists.mp (by simpa [Option.isSome_iff_ne_none] using hnone)
        · intro hrequires
          simpa [hrequires] using hprior
        · intro hrequires
          simpa [hrequires] using hno
  | _ => exact .inl ⟨trivial, rfl⟩

theorem apply_of_accepts (h : j.Accepts j.nextValue (c.body j)) :
    c.apply j = (true, j.append (c.body j)) := by
  rcases apply_eq (j := j) c with ⟨-, happly⟩ | ⟨hnot, -⟩
  · exact happly
  · exact absurd h hnot

theorem exists_call {ord : Nat} {body : JournalBody} (h : j.Accepts ord body)
    (hord : ord = j.nextValue) : ∃ c : Call, c.body j = body := by
  subst hord
  cases body with
  | run r =>
      refine ⟨.commissionRun ⟨r.run, r.laneScope, r.boxId, r.releaseCommit, r.manifestDigest,
        r.aggregationVersion, r.runKind, r.commissioningIdentity⟩ r.token, ?_⟩
      rw [Call.body, Commission.tuple, ← h.2.2.2]
  | start s => exact ⟨.startRunAt s.run s.runnerIdentity s.startedAt s.launchNonce, rfl⟩
  | terminal t => exact ⟨.markTerminal t.run t.terminal, rfl⟩
  | designation event => exact ⟨.designate event, rfl⟩
  | contextActivation kind => exact ⟨.activateContext kind, rfl⟩
  | publicationSnapshot event =>
      exact ⟨.publishSnapshot event.artifactIndexHeadDigest event.observedAt, rfl⟩

/-! ### Ordinals -/

def Dense (j : AuthorityJournal) : Prop := j.map (·.ordinal) = List.range' 1 j.length

theorem le_nextValue (j : AuthorityJournal) : ∀ t ∈ j, t.ordinal < j.nextValue := by
  intro t ht
  have hle := List.le_max?_getD_of_mem (k := 0) (List.mem_map_of_mem (f := (·.ordinal)) ht)
  exact Nat.lt_succ_of_le hle

theorem Dense.nextValue (h : j.Dense) : j.nextValue = j.length + 1 := by
  rw [AuthorityJournal.nextValue, h]
  cases j.length with
  | zero => rfl
  | succ n =>
      have hmax : (List.range' 1 (n + 1)).max? = some (n + 1) := by
        rw [List.max?_eq_some_iff]
        constructor
        · exact List.mem_range'_1.mpr ⟨by omega, by omega⟩
        · intro k hk
          have hbounds := List.mem_range'_1.mp hk
          omega
      rw [hmax, Option.getD_some]

theorem dense_snoc {e : JournalEntry} :
    Dense (j ++ [e]) ↔ j.Dense ∧ e.ordinal = j.length + 1 := by
  rw [Dense, Dense, List.map_append, List.length_append, List.length_singleton,
    List.range'_1_concat, List.map_singleton]
  constructor
  · intro h
    obtain ⟨hfront, hlast⟩ := List.append_inj h (by simp)
    exact ⟨hfront, by simpa [Nat.add_comm] using hlast⟩
  · rintro ⟨hfront, hlast⟩
    rw [hfront, hlast, Nat.add_comm]

/-! ### Runs of calls -/

def run (calls : List Call) : AuthorityJournal := calls.foldl call []

/-- A start call that meets its preconditions is for a run that has no terminal event. -/
def StartsOpenCall (j : AuthorityJournal) (c : Call) : Prop :=
  j.Accepts j.nextValue (c.body j) → j.StartsOpen (c.body j)

theorem call_cases (j : AuthorityJournal) (c : Call) :
    (j.Accepts j.nextValue (c.body j) ∧ j.call c = j ++ [⟨j.nextValue, c.body j⟩]) ∨
      (¬ j.Accepts j.nextValue (c.body j) ∧ j.call c = j) := by
  rcases apply_eq (j := j) c with ⟨haccepts, happly⟩ | ⟨hnot, happly⟩
  · exact .inl ⟨haccepts, by rw [call, happly]; rfl⟩
  · exact .inr ⟨hnot, by rw [call, happly]⟩

theorem checks_call_iff (j : AuthorityJournal) (c : Call) :
    (j.call c).Checks ↔ j.Checks ∧ j.StartsOpenCall c := by
  rcases call_cases j c with ⟨haccepts, hcall⟩ | ⟨hnot, hcall⟩
  · rw [hcall, checks_snoc_iff]
    constructor
    · rintro ⟨hold, -, -, hopen⟩
      exact ⟨hold, fun _ => hopen⟩
    · rintro ⟨hold, hopen⟩
      exact ⟨hold, le_nextValue j, haccepts, hopen haccepts⟩
  · rw [hcall]
    exact (and_iff_left fun haccepts => absurd haccepts hnot).symm

theorem exists_run (h : j.Dense) (hchecks : j.Checks) : ∃ calls, run calls = j := by
  induction j using List.reverseRecOn with
  | nil => exact ⟨[], rfl⟩
  | append_singleton xs e ih =>
      obtain ⟨hdense, hordinal⟩ := dense_snoc.mp h
      obtain ⟨hold, -, haccepts, -⟩ := checks_snoc_iff.mp hchecks
      obtain ⟨calls, hcalls⟩ := ih hdense hold
      have hnext : e.ordinal = nextValue xs := hordinal.trans hdense.nextValue.symm
      obtain ⟨c, hbody⟩ := exists_call haccepts hnext
      refine ⟨calls ++ [c], ?_⟩
      have happly := apply_of_accepts (j := xs) (c := c) (by rw [hbody, ← hnext]; exact haccepts)
      rw [run, List.foldl_append, ← run, hcalls]
      change (c.apply xs).2 = _
      rw [happly, append, hbody, ← hnext]

/-- **The calls and the check agree** on every run of calls in which no run is started after its
terminal event. -/
theorem calls_agree_with_check (calls : List Call) :
    ((run calls).integrityCheck = .ok () ↔ Along call StartsOpenCall [] calls) ∧
      (∀ (j : AuthorityJournal) (c : Call), ((c.apply j).1 = false → (c.apply j).2 = j) ∧
        ((c.apply j).1 = true → ∃ e, (c.apply j).2 = j ++ [e])) ∧
      ∀ j : AuthorityJournal, j.Dense → j.integrityCheck = .ok () → ∃ calls, run calls = j := by
  refine ⟨?_, fun j c => ?_, fun j hdense hchecks => ?_⟩
  · have hstep (j : AuthorityJournal) (c : Call) (_ : True) (_ : True) :
        True ∧ ((j.call c).Checks ↔ j.Checks ∧ j.StartsOpenCall c) :=
      ⟨trivial, checks_call_iff j c⟩
    have hrun : (run calls).Checks ↔ Checks [] ∧ Along call StartsOpenCall [] calls :=
      Along.iff_of_step hstep trivial (Along.of_here fun _ _ _ _ => trivial)
    rw [integrityCheck_eq_ok, hrun]
    exact and_iff_right rfl
  · rcases apply_eq (j := j) c with ⟨-, happly⟩ | ⟨-, happly⟩
    · rw [happly]
      exact ⟨nofun, fun _ => ⟨_, rfl⟩⟩
    · rw [happly]
      exact ⟨fun _ => rfl, nofun⟩
  · exact exists_run hdense (integrityCheck_eq_ok.mp hchecks)

def loneCommission : Commission where
  run := "r1"
  laneScope := {.pi}
  boxId := "lima"
  releaseCommit := "commit-abc"
  manifestDigest := "sha256:deadbeef"
  aggregationVersion := "agg-v1"
  runKind := .evidence
  commissioningIdentity := "registrar-1"

/-- A run that is cancelled before it starts can still be started. -/
theorem startAfterCancel_fails_check :
    (run [.commissionRun loneCommission "tok-1", .markTerminal "r1" (.cancelledPreExecution "drained"),
      .startRunAt "r1" "runner-1" "" "nonce-1"]).integrityCheck ≠ .ok () := by
  rw [ne_eq, integrityCheck_eq_ok]
  unfold Checks
  decide

theorem startedRun_called : ∃ calls, run calls =
    [⟨1, .run (loneCommission.tuple 1 "tok-1")⟩, ⟨2, .start ⟨"r1", "runner-1", "nonce-1", ""⟩⟩,
      ⟨3, .terminal ⟨"r1", .completed "sha256:cafe"⟩⟩] := by
  refine (calls_agree_with_check []).2.2 _ ?_ ?_
  · rfl
  · rw [integrityCheck_eq_ok]
    unfold Checks
    decide

end AuthorityJournal

end QuorumDispatch.Conformance
