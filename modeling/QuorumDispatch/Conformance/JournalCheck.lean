import QuorumDispatch.Conformance.Journal

/-!
What `integrity_check` says of a journal, entry by entry: a journal passes if it passes without its
last entry, and the last entry is one that may be written behind the rest.
-/

namespace QuorumDispatch.Conformance

open Lib

namespace AuthorityJournal

/-! ### Lookups in a longer journal -/

section Lookups

variable (xs : AuthorityJournal) (e : JournalEntry) (run : String)

theorem runEntry_append : runEntry (xs ++ [e]) run = (xs.runEntry run).or (runEntry [e] run) :=
  List.findSome?_append

theorem startOrdinal_append :
    startOrdinal (xs ++ [e]) run = (xs.startOrdinal run).or (startOrdinal [e] run) :=
  List.findSome?_append

theorem terminalEvent_append :
    terminalEvent (xs ++ [e]) run = (xs.terminalEvent run).or (terminalEvent [e] run) :=
  List.findSome?_append

theorem hasStartEvent_append :
    hasStartEvent (xs ++ [e]) run = (xs.hasStartEvent run || hasStartEvent [e] run) :=
  List.any_append

theorem runEntry_singleton : runEntry [e] run = e.body.run?.filter (·.run == run) := by
  simp only [runEntry, List.findSome?_cons, List.findSome?_nil]
  cases e.body.run?.filter (·.run == run) <;> rfl

theorem terminalEvent_singleton :
    terminalEvent [e] run = e.body.terminal?.filter (·.run == run) := by
  simp only [terminalEvent, List.findSome?_cons, List.findSome?_nil]
  cases e.body.terminal?.filter (·.run == run) <;> rfl

theorem startOrdinal_singleton :
    startOrdinal [e] run = (e.body.start?.filter (·.run == run)).map fun _ => e.ordinal := by
  simp only [startOrdinal, List.findSome?_cons, List.findSome?_nil]
  cases e.body.start?.filter (·.run == run) <;> rfl

variable {xs run}

theorem isSome_runEntry : (xs.runEntry run).isSome = xs.any fun e => e.body.run?.any (·.run == run) := by
  simp [runEntry, List.isSome_findSome?, Option.isSome_filter]

theorem isSome_startOrdinal : (xs.startOrdinal run).isSome = xs.hasStartEvent run := by
  simp [startOrdinal, hasStartEvent, List.isSome_findSome?, Option.isSome_filter]

theorem isSome_terminalEvent : (xs.terminalEvent run).isSome =
    xs.any fun e => e.body.terminal?.any (·.run == run) := by
  simp [terminalEvent, List.isSome_findSome?, Option.isSome_filter]

theorem mem_of_runEntry {entry : RunEntry} (h : xs.runEntry run = some entry) :
    entry.run = run ∧ ∃ e ∈ xs, e.body = .run entry := by
  obtain ⟨e, he, hbody⟩ := List.exists_of_findSome?_eq_some h
  obtain ⟨hrun, hname⟩ := Option.filter_eq_some_iff.mp hbody
  refine ⟨by simpa using hname, e, he, ?_⟩
  cases hb : e.body with
  | run r => rw [hb] at hrun; cases hrun; rfl
  | _ => rw [hb] at hrun; cases hrun

theorem mem_of_startOrdinal {o : Nat} (h : xs.startOrdinal run = some o) :
    ∃ e ∈ xs, e.ordinal = o := by
  obtain ⟨e, he, hbody⟩ := List.exists_of_findSome?_eq_some h
  obtain ⟨_, -, rfl⟩ := Option.map_eq_some_iff.mp hbody
  exact ⟨e, he, rfl⟩

end Lookups

/-! ### What an entry must meet -/

/-- The preconditions of the calls, for the entry that would be written. -/
def Accepts (j : AuthorityJournal) (ord : Nat) : JournalBody → Prop
  | .run r => j.runEntry r.run = none ∧ blank r.token = false ∧ j.tokenExists r.token = false ∧
      r.sequence = ord
  | .start s => (∃ entry, j.runEntry s.run = some entry ∧
      ¬ (entry.runKind = .evidence ∧ s.runnerIdentity = entry.commissioningIdentity)) ∧
      j.hasStartEvent s.run = false ∧ blank s.launchNonce = false ∧
      j.nonceExists s.launchNonce = false
  | .terminal t => t.terminal.isTerminal = true ∧ (∃ entry, j.runEntry t.run = some entry) ∧
      j.terminalEvent t.run = none ∧
      (t.terminal.requiresPriorStart = true → j.hasStartEvent t.run = true) ∧
      (t.terminal.requiresNoPriorStart = true → j.hasStartEvent t.run = false)
  | _ => True

def StartsOpen (j : AuthorityJournal) : JournalBody → Prop
  | .start s => j.terminalEvent s.run = none
  | _ => True

section Entries

variable (j : AuthorityJournal) (seen : Seen) (ord : Nat)

@[simp] theorem flag_eq_nil {bad : Bool} {message : String} :
    flag bad message = [] ↔ bad = false := by
  cases bad <;> simp [flag]

theorem checkOrdinal_eq_nil : checkOrdinal seen ord = [] ↔
    (∀ p, seen.prev = some p → p < ord) ∧ seen.ords.contains ord = false := by
  rw [checkOrdinal, List.append_eq_nil_iff, flag_eq_nil, flag_eq_nil]
  refine and_congr_left fun _ => ?_
  cases seen.prev <;> simp

theorem checkRun_eq_nil (r : RunEntry) : checkRun seen ord r = [] ↔
    seen.runs.contains r.run = false ∧ blank r.token = false ∧
      seen.toks.contains r.token = false ∧ r.sequence = ord := by
  simp only [checkRun, List.append_eq_nil_iff, flag_eq_nil]
  cases blank r.token <;> simp [and_assoc]

theorem checkStart_eq_nil (s : RunStartEvent) : j.checkStart seen ord s = [] ↔
    seen.startRuns.contains s.run = false ∧ blank s.launchNonce = false ∧
      seen.nonces.contains s.launchNonce = false ∧
      ∃ entry, j.runEntry s.run = some entry ∧
        ¬ (entry.runKind = .evidence ∧ s.runnerIdentity = entry.commissioningIdentity) ∧
        entry.sequence < ord := by
  simp only [checkStart, List.append_eq_nil_iff, flag_eq_nil]
  cases j.runEntry s.run <;> cases blank s.launchNonce <;> simp [and_assoc]

theorem checkTerminal_eq_nil (t : TerminalTransition) : j.checkTerminal seen ord t = [] ↔
    seen.terminalRuns.contains t.run = false ∧ t.terminal.isTerminal = true ∧
      (∃ entry, j.runEntry t.run = some entry ∧ entry.sequence < ord) ∧
      (∀ o, j.startOrdinal t.run = some o → o < ord) ∧
      (t.terminal.requiresPriorStart = true → j.hasStartEvent t.run = true) ∧
      (t.terminal.requiresNoPriorStart = true → j.hasStartEvent t.run = false) := by
  simp only [checkTerminal, List.append_eq_nil_iff, flag_eq_nil]
  cases j.runEntry t.run <;> cases j.startOrdinal t.run <;> simp [and_assoc]

end Entries

/-! ### What has been seen -/

def seenIn (xs : AuthorityJournal) : Seen := xs.foldl Seen.next {}

section Seen

variable (xs : AuthorityJournal) (e : JournalEntry)

theorem contains_cons {α : Type} [BEq α] [LawfulBEq α] (a b : α) (l : List α) :
    (a :: l).contains b = (l.contains b || a == b) := by
  rw [List.contains_cons, Bool.or_comm, BEq.comm]

theorem seenIn_snoc : seenIn (xs ++ [e]) = (seenIn xs).next e :=
  List.foldl_append

theorem seenIn_prev : (seenIn xs).prev = xs.getLast?.map (·.ordinal) := by
  induction xs using List.reverseRecOn with
  | nil => rfl
  | append_singleton xs e ih =>
      rw [seenIn_snoc, List.getLast?_concat]
      cases hb : e.body <;> simp [Seen.next, hb]

theorem seenIn_ords (ord : Nat) : (seenIn xs).ords.contains ord = xs.any (·.ordinal == ord) := by
  induction xs using List.reverseRecOn with
  | nil => rfl
  | append_singleton xs e ih =>
      rw [seenIn_snoc, List.any_append, ← ih]
      cases hb : e.body <;> simp only [Seen.next, hb, contains_cons, List.any_cons, List.any_nil,
        Bool.or_false]

theorem seenIn_runs (run : String) : (seenIn xs).runs.contains run = (xs.runEntry run).isSome := by
  rw [isSome_runEntry]
  induction xs using List.reverseRecOn with
  | nil => rfl
  | append_singleton xs e ih =>
      rw [seenIn_snoc, List.any_append, ← ih]
      cases hb : e.body <;> simp only [Seen.next, hb, contains_cons, List.any_cons, List.any_nil,
        JournalBody.run?, Option.any_some, Option.any_none, Bool.or_false]

theorem seenIn_toks {token : String} (h : blank token = false) :
    (seenIn xs).toks.contains token = xs.tokenExists token := by
  induction xs using List.reverseRecOn with
  | nil => rfl
  | append_singleton xs e ih =>
      rw [seenIn_snoc, tokenExists, List.any_append, ← tokenExists, ← ih]
      cases hb : e.body with
      | run r =>
          by_cases hblank : blank r.token = true
          · have hne : r.token ≠ token := fun heq => by rw [heq, h] at hblank; cases hblank
            simp [Seen.next, hb, JournalBody.run?, hblank, hne]
          · simp only [Seen.next, hb, hblank, if_false, contains_cons, List.any_cons, List.any_nil,
              JournalBody.run?, Option.any_some, Bool.or_false, Bool.false_eq_true]
      | _ => simp [Seen.next, hb, JournalBody.run?]

theorem seenIn_startRuns (run : String) :
    (seenIn xs).startRuns.contains run = xs.hasStartEvent run := by
  induction xs using List.reverseRecOn with
  | nil => rfl
  | append_singleton xs e ih =>
      rw [seenIn_snoc, hasStartEvent, List.any_append, ← hasStartEvent, ← ih]
      cases hb : e.body <;> simp only [Seen.next, hb, contains_cons, List.any_cons, List.any_nil,
        JournalBody.start?, Option.any_some, Option.any_none, Bool.or_false]

theorem seenIn_nonces {nonce : String} (h : blank nonce = false) :
    (seenIn xs).nonces.contains nonce = xs.nonceExists nonce := by
  induction xs using List.reverseRecOn with
  | nil => rfl
  | append_singleton xs e ih =>
      rw [seenIn_snoc, nonceExists, List.any_append, ← nonceExists, ← ih]
      cases hb : e.body with
      | start s =>
          by_cases hblank : blank s.launchNonce = true
          · have hne : s.launchNonce ≠ nonce := fun heq => by rw [heq, h] at hblank; cases hblank
            simp [Seen.next, hb, JournalBody.start?, hblank, hne]
          · simp only [Seen.next, hb, hblank, if_false, contains_cons, List.any_cons, List.any_nil,
              JournalBody.start?, Option.any_some, Bool.or_false, Bool.false_eq_true]
      | _ => simp [Seen.next, hb, JournalBody.start?]

theorem seenIn_terminalRuns (run : String) :
    (seenIn xs).terminalRuns.contains run = (xs.terminalEvent run).isSome := by
  rw [isSome_terminalEvent]
  induction xs using List.reverseRecOn with
  | nil => rfl
  | append_singleton xs e ih =>
      rw [seenIn_snoc, List.any_append, ← ih]
      cases hb : e.body <;> simp only [Seen.next, hb, contains_cons, List.any_cons, List.any_nil,
        JournalBody.terminal?, Option.any_some, Option.any_none, Bool.or_false]

end Seen

/-! ### The check of a longer journal -/

section Checks

variable {j xs : AuthorityJournal} {seen : Seen} {e t : JournalEntry}

theorem checkEntries_append (j : AuthorityJournal) (seen : Seen) (xs ys : List JournalEntry) :
    j.checkEntries seen (xs ++ ys) =
      j.checkEntries seen xs ++ j.checkEntries (xs.foldl Seen.next seen) ys := by
  induction xs generalizing seen with
  | nil => rfl
  | cons x xs ih => simp only [List.cons_append, checkEntries, ih, List.foldl_cons, List.append_assoc]

/-- Ordinals grow along what passes. -/
theorem increasing_of_check {es : List JournalEntry} (h : j.checkEntries seen es = []) :
    (∀ p, seen.prev = some p → ∀ e ∈ es, p < e.ordinal) ∧
      es.Pairwise fun a b => a.ordinal < b.ordinal := by
  induction es generalizing seen with
  | nil => exact ⟨fun _ _ _ he => (by cases he), .nil⟩
  | cons e es ih =>
      obtain ⟨hentry, hrest⟩ := List.append_eq_nil_iff.mp h
      have hord := ((checkOrdinal_eq_nil _ _).mp (List.append_eq_nil_iff.mp hentry).1).1
      obtain ⟨hbehind, hpairwise⟩ := ih hrest
      have hnext : ∀ e' ∈ es, e.ordinal < e'.ordinal := by
        refine hbehind e.ordinal ?_
        cases hb : e.body <;> simp [Seen.next, hb]
      refine ⟨fun p hp e' he' => ?_, List.pairwise_cons.mpr ⟨hnext, hpairwise⟩⟩
      rcases List.mem_cons.mp he' with rfl | he'
      · exact hord p hp
      · exact Nat.lt_trans (hord p hp) (hnext e' he')

theorem sequence_of_check {es : List JournalEntry} (h : j.checkEntries seen es = []) (ht : t ∈ es)
    {r : RunEntry} (hr : t.body = .run r) : r.sequence = t.ordinal := by
  induction es generalizing seen with
  | nil => cases ht
  | cons e es ih =>
      obtain ⟨hentry, hrest⟩ := List.append_eq_nil_iff.mp h
      rcases List.mem_cons.mp ht with rfl | ht
      · have hrun := (List.append_eq_nil_iff.mp hentry).2
        rw [hr] at hrun
        exact ((checkRun_eq_nil _ _ _).mp hrun).2.2.2
      · exact ih hrest ht

/-- The last entry of a journal does not start a run that an earlier entry disposed of. -/
def StartsNot (xs : AuthorityJournal) (e t : JournalEntry) : Prop :=
  ∀ tr s, t.body = .terminal tr → e.body = .start s → xs.hasStartEvent s.run = false → tr.run ≠ s.run

theorem runEntry_snoc_iff {ord : Nat} {run : String} {Q : RunEntry → Prop} (ho : ord < e.ordinal)
    (hseq : ∀ r, e.body = .run r → r.sequence = e.ordinal)
    (hQ : ∀ entry, Q entry → entry.sequence < ord) :
    (∃ entry, runEntry (xs ++ [e]) run = some entry ∧ Q entry) ↔
      ∃ entry, xs.runEntry run = some entry ∧ Q entry := by
  refine exists_congr fun entry => and_congr_left fun hentry => ?_
  rw [runEntry_append]
  cases hold : xs.runEntry run with
  | some _ => rw [Option.some_or]
  | none =>
      rw [Option.none_or, runEntry_singleton]
      refine iff_of_false (fun hlast => ?_) nofun
      obtain ⟨hbody, -⟩ := Option.filter_eq_some_iff.mp hlast
      cases hb : e.body with
      | run r =>
          rw [hb] at hbody
          cases hbody
          have hlast := hseq _ hb
          have hlt := hQ _ hentry
          omega
      | _ => rw [hb] at hbody; cases hbody

theorem hasStartEvent_singleton (e : JournalEntry) (run : String) :
    hasStartEvent [e] run = e.body.start?.any (·.run == run) := by
  rw [hasStartEvent, List.any_cons, List.any_nil, Bool.or_false]

/-- What one more entry means for an earlier one. -/
theorem checkEntry_snoc_iff (ht : t.ordinal < e.ordinal)
    (hseq : ∀ r, e.body = .run r → r.sequence = e.ordinal) :
    checkEntry (xs ++ [e]) seen t = [] ↔ checkEntry xs seen t = [] ∧ StartsNot xs e t := by
  unfold checkEntry
  simp only [List.append_eq_nil_iff, and_assoc]
  refine and_congr_right fun _ => ?_
  cases htbody : t.body with
  | start s =>
      have hstarts : StartsNot xs e t := fun tr s' htr => by rw [htbody] at htr; cases htr
      simp only [checkStart_eq_nil, and_iff_left hstarts]
      rw [runEntry_snoc_iff ht hseq fun entry hentry => hentry.2]
  | terminal tr =>
      simp only [checkTerminal_eq_nil]
      rw [runEntry_snoc_iff ht hseq fun entry hentry => hentry, startOrdinal_append,
        hasStartEvent_append]
      cases hold : xs.hasStartEvent tr.run with
      | true =>
          -- the run was started before
          have hstarts : StartsNot xs e t := by
            intro tr' s htr' _ hnone heq
            rw [htbody] at htr'
            cases htr'
            rw [← heq, hold] at hnone
            cases hnone
          obtain ⟨o, ho⟩ := Option.isSome_iff_exists.mp (isSome_startOrdinal.trans hold)
          rw [ho, Option.some_or, Bool.true_or, and_iff_left hstarts]
      | false =>
          have hnone : xs.startOrdinal tr.run = none := by
            rw [← Option.not_isSome_iff_eq_none, isSome_startOrdinal, hold]
            exact Bool.false_ne_true
          rw [hnone, Option.none_or, Bool.false_or, startOrdinal_singleton, hasStartEvent_singleton]
          cases hstart : e.body.start?.filter (·.run == tr.run) with
          | none =>
              have hstarts : StartsNot xs e t := by
                intro tr' s htr' hs _ heq
                rw [htbody] at htr'
                cases htr'
                simp [hs, JournalBody.start?, heq] at hstart
              have hany : e.body.start?.any (·.run == tr.run) = false := by
                rw [← Option.isSome_filter, hstart]
                rfl
              rw [hany, Option.map_none, and_iff_left hstarts]
          | some s =>
              obtain ⟨hs, hrun⟩ := Option.filter_eq_some_iff.mp hstart
              have hsame : s.run = tr.run := by simpa using hrun
              refine iff_of_false (fun hfine => ?_) fun hfine => ?_
              · have hlt := hfine.2.2.2.1 e.ordinal rfl
                omega
              · refine hfine.2 tr s htbody ?_ ?_ hsame.symm
                · cases hb : e.body with
                  | start s' => rw [hb] at hs; cases hs; rfl
                  | _ => rw [hb] at hs; cases hs
                · rw [hsame]
                  exact hold
  | _ =>
      have hstarts : StartsNot xs e t := fun tr s' htr => by rw [htbody] at htr; cases htr
      exact (and_iff_left hstarts).symm

theorem checkEntries_congr {j' : AuthorityJournal} {P : JournalEntry → Prop}
    {es : List JournalEntry} (h : ∀ t ∈ es, ∀ seen, j.checkEntry seen t = [] ↔
      j'.checkEntry seen t = [] ∧ P t) :
    j.checkEntries seen es = [] ↔ j'.checkEntries seen es = [] ∧ ∀ t ∈ es, P t := by
  induction es generalizing seen with
  | nil => simp [checkEntries]
  | cons t es ih =>
      simp only [checkEntries, List.append_eq_nil_iff, List.forall_mem_cons]
      rw [h t List.mem_cons_self, ih fun t' ht' => h t' (List.mem_cons_of_mem _ ht')]
      exact and_and_and_comm

theorem checkEntry_last_iff (hlt : ∀ t ∈ xs, t.ordinal < e.ordinal)
    (hseq : ∀ t ∈ xs, ∀ r, t.body = .run r → r.sequence = t.ordinal) :
    checkEntry (xs ++ [e]) (seenIn xs) e = [] ↔ xs.Accepts e.ordinal e.body := by
  have hord : checkOrdinal (seenIn xs) e.ordinal = [] := by
    rw [checkOrdinal_eq_nil, seenIn_prev, seenIn_ords]
    constructor
    · rintro p hp
      obtain ⟨t, ht, rfl⟩ := Option.map_eq_some_iff.mp hp
      exact hlt t (List.mem_of_getLast? ht)
    · refine List.any_eq_false.mpr fun t ht => ?_
      simpa using (hlt t ht).ne
  have hbefore {run : String} {entry : RunEntry} (hentry : xs.runEntry run = some entry) :
      entry.sequence < e.ordinal := by
    obtain ⟨-, t, ht, hbody⟩ := mem_of_runEntry hentry
    rw [hseq t ht entry hbody]
    exact hlt t ht
  have hsame (run : String) (hb : e.body.run? = none) :
      runEntry (xs ++ [e]) run = xs.runEntry run := by
    rw [runEntry_append, runEntry_singleton, hb]
    exact Option.or_none
  unfold checkEntry Accepts
  rw [hord, List.nil_append]
  cases hb : e.body with
  | run r =>
      simp only [checkRun_eq_nil, seenIn_runs, Option.isSome_eq_false_iff, Option.isNone_iff_eq_none]
      refine and_congr_right fun _ => and_congr_right fun hblank => ?_
      rw [seenIn_toks xs hblank]
  | start s =>
      simp only [checkStart_eq_nil, seenIn_startRuns, hsame s.run (by rw [hb]; rfl)]
      constructor
      · rintro ⟨hstart, hblank, hnonce, entry, hentry, hid, -⟩
        exact ⟨⟨entry, hentry, hid⟩, hstart, hblank, seenIn_nonces xs hblank ▸ hnonce⟩
      · rintro ⟨⟨entry, hentry, hid⟩, hstart, hblank, hnonce⟩
        exact ⟨hstart, hblank, (seenIn_nonces xs hblank).trans hnonce, entry, hentry, hid,
          hbefore hentry⟩
  | terminal tr =>
      have hstart : e.body.start? = none := by rw [hb]; rfl
      have hordinal : startOrdinal (xs ++ [e]) tr.run = xs.startOrdinal tr.run := by
        rw [startOrdinal_append, startOrdinal_singleton, hstart]
        exact Option.or_none
      have hhas : hasStartEvent (xs ++ [e]) tr.run = xs.hasStartEvent tr.run := by
        rw [hasStartEvent_append, hasStartEvent_singleton, hstart]
        exact Bool.or_false _
      simp only [checkTerminal_eq_nil, seenIn_terminalRuns, hsame tr.run (by rw [hb]; rfl),
        Option.isSome_eq_false_iff, Option.isNone_iff_eq_none, hordinal, hhas]
      constructor
      · rintro ⟨hnone, hterminal, ⟨entry, hentry, -⟩, -, hprior, hno⟩
        exact ⟨hterminal, ⟨entry, hentry⟩, hnone, hprior, hno⟩
      · rintro ⟨hterminal, ⟨entry, hentry⟩, hnone, hprior, hno⟩
        refine ⟨hnone, hterminal, ⟨entry, hentry, hbefore hentry⟩, fun o ho => ?_, hprior, hno⟩
        obtain ⟨t, ht, rfl⟩ := mem_of_startOrdinal ho
        exact hlt t ht
  | _ => simp

def Checks (j : AuthorityJournal) : Prop := j.checkEntries {} j = []

theorem integrityCheck_eq_ok : j.integrityCheck = .ok () ↔ j.Checks := by
  unfold integrityCheck Checks
  cases j.checkEntries {} j <;> simp

theorem mem_of_terminalEvent {run : String} {tr : TerminalTransition}
    (h : xs.terminalEvent run = some tr) : tr.run = run ∧ ∃ t ∈ xs, t.body = .terminal tr := by
  obtain ⟨t, ht, hbody⟩ := List.exists_of_findSome?_eq_some h
  obtain ⟨hterminal, hname⟩ := Option.filter_eq_some_iff.mp hbody
  refine ⟨by simpa using hname, t, ht, ?_⟩
  cases hb : t.body with
  | terminal tr' => rw [hb] at hterminal; cases hterminal; rfl
  | _ => rw [hb] at hterminal; cases hterminal

theorem startsNot_iff (haccepts : xs.Accepts e.ordinal e.body) :
    (∀ t ∈ xs, StartsNot xs e t) ↔ xs.StartsOpen e.body := by
  cases hb : e.body with
  | start s =>
      rw [hb] at haccepts
      constructor
      · intro hnot
        by_contra hsome
        obtain ⟨tr, htr⟩ := Option.ne_none_iff_exists'.mp hsome
        obtain ⟨hrun, t, ht, hbody⟩ := mem_of_terminalEvent htr
        exact hnot t ht tr s hbody hb haccepts.2.1 hrun
      · intro hopen t ht tr s' htr hs' _ hrun
        rw [hb] at hs'
        cases hs'
        have hany : (xs.terminalEvent s.run).isSome = true := by
          rw [isSome_terminalEvent]
          exact List.any_eq_true.mpr ⟨t, ht, by simp [htr, JournalBody.terminal?, hrun]⟩
        rw [show xs.terminalEvent s.run = none from hopen] at hany
        cases hany
  | _ =>
      refine iff_of_true (fun t _ tr s _ hs => ?_) trivial
      rw [hb] at hs
      cases hs

/-- **A journal passes exactly if it passes without its last entry, and that is one that may be
written there.** -/
theorem checks_snoc_iff : Checks (xs ++ [e]) ↔ xs.Checks ∧ (∀ t ∈ xs, t.ordinal < e.ordinal) ∧
    xs.Accepts e.ordinal e.body ∧ xs.StartsOpen e.body := by
  have hsplit : Checks (xs ++ [e]) ↔ checkEntries (xs ++ [e]) {} xs = [] ∧
      checkEntry (xs ++ [e]) (seenIn xs) e = [] := by
    rw [Checks, checkEntries_append, List.append_eq_nil_iff]
    simp only [checkEntries, List.append_nil]
    rfl
  constructor
  · intro hchecks
    have hpairwise := (increasing_of_check hchecks).2
    have hlt : ∀ t ∈ xs, t.ordinal < e.ordinal := by
      intro t ht
      exact (List.pairwise_append.mp hpairwise).2.2 t ht e (List.mem_singleton_self e)
    obtain ⟨hfront, hlast⟩ := hsplit.mp hchecks
    have hseq : ∀ r, e.body = .run r → r.sequence = e.ordinal := fun r hr =>
      sequence_of_check hchecks (List.mem_append_right _ (List.mem_singleton_self e)) hr
    obtain ⟨hold, hnot⟩ := (checkEntries_congr fun t ht seen =>
      checkEntry_snoc_iff (hlt t ht) hseq).mp hfront
    have haccepts := (checkEntry_last_iff hlt fun t ht r hr => sequence_of_check hold ht hr).mp hlast
    exact ⟨hold, hlt, haccepts, (startsNot_iff haccepts).mp hnot⟩
  · rintro ⟨hold, hlt, haccepts, hopen⟩
    have hseq : ∀ r, e.body = .run r → r.sequence = e.ordinal := by
      intro r hr
      rw [hr] at haccepts
      exact haccepts.2.2.2
    refine hsplit.mpr ⟨?_, ?_⟩
    · exact (checkEntries_congr fun t ht seen => checkEntry_snoc_iff (hlt t ht) hseq).mpr
        ⟨hold, (startsNot_iff haccepts).mpr hopen⟩
    · exact (checkEntry_last_iff hlt fun t ht r hr => sequence_of_check hold ht hr).mpr haccepts

end Checks

end AuthorityJournal

end QuorumDispatch.Conformance
