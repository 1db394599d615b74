import QuorumDispatch.Registry.Rows

/-!
Tombstones over the lives of a pid. Sessions that come one after the other may have the same
pid, and so the same two files: the row of the session that lives, and the tombstone of one
that does not. The stamp of its start tells one session of a pid from another.

`ensure_tombstone` takes any tombstone of the pid for that of the session that it is about.
-/

namespace QuorumDispatch.Registry

structure RowFiles (α : Type) where
  live : Int → Option (Entry α) := fun _ => none
  tombstoned : Int → Option (Entry α) := fun _ => none

inductive TombstoneOutcome where
  | tombstoned
  | absent
  | refused (onDiskStartedAt : Int)
deriving DecidableEq, Repr

namespace RowFiles

variable {α : Type}

def writeEntry (s : RowFiles α) (entry : Entry α) : RowFiles α :=
  match entry.pid with
  | some pid => { s with live := Function.update s.live pid (some entry) }
  | none => s

def tombstone (s : RowFiles α) (pid : Int) : Bool × RowFiles α :=
  match s.live pid with
  | some row =>
      (true,
        { live := Function.update s.live pid none
          tombstoned := Function.update s.tombstoned pid (some row) })
  | none => (false, s)

def synthesize (s : RowFiles α) (pid : Int) (captured : Option (Entry α)) : RowFiles α :=
  match captured with
  | some captured => { s with tombstoned := Function.update s.tombstoned pid (some captured) }
  | none => s

def ensureTombstone (s : RowFiles α) (pid : Int) (captured : Option (Entry α)) : RowFiles α :=
  if (s.tombstoned pid).isSome then s
  else
    match s.tombstone pid with
    | (true, s') => s'
    | (false, s') => s'.synthesize pid captured

/-- Refused if the row has another stamp than the one that is expected. -/
def tombstoneGuarded (s : RowFiles α) (pid : Int) (expectedStartedAt : Option Int) :
    TombstoneOutcome × RowFiles α :=
  match conflict ((s.live pid).bind Entry.startedAt) expectedStartedAt with
  | some disk => (.refused disk, s)
  | none =>
      match s.tombstone pid with
      | (true, s') => (.tombstoned, s')
      | (false, s') => (.absent, s')

def ensureTombstoneGuarded (s : RowFiles α) (pid : Int) (captured : Option (Entry α))
    (expectedStartedAt : Option Int) : TombstoneOutcome × RowFiles α :=
  if (s.tombstoned pid).isSome then (.tombstoned, s)
  else
    match s.tombstoneGuarded pid expectedStartedAt with
    | (.tombstoned, s') => (.tombstoned, s')
    | (.refused disk, s') => (.refused disk, s')
    | (.absent, s') => (.absent, s'.synthesize pid captured)

end RowFiles

/-! ### Calls -/

inductive RowCall (α : Type) where
  | writeEntry (entry : Entry α)
  | ensureTombstone (pid : Int) (captured : Option (Entry α))
  | ensureTombstoneGuarded (pid : Int) (captured : Option (Entry α)) (expectedStartedAt : Option Int)
deriving DecidableEq, Repr

variable {α : Type}

def RowCall.run (s : RowFiles α) : RowCall α → RowFiles α
  | writeEntry entry => s.writeEntry entry
  | ensureTombstone pid captured => s.ensureTombstone pid captured
  | ensureTombstoneGuarded pid captured expected => (s.ensureTombstoneGuarded pid captured expected).2

def RowFiles.runAll (s : RowFiles α) (calls : List (RowCall α)) : RowFiles α :=
  calls.foldl RowCall.run s

/-- The session that a tombstone is asked for, by its stamp: the one that lives, if its stamp is
not another than the expected one, or else the expected one, or else the captured one. -/
def RowFiles.target (s : RowFiles α) (pid : Int) (captured : Option (Entry α))
    (expectedStartedAt : Option Int) : Option (Option Int) :=
  match s.live pid with
  | some row =>
      match conflict row.startedAt expectedStartedAt with
      | none => some row.startedAt
      | some _ => expectedStartedAt.map some
  | none => (expectedStartedAt.map some).or (captured.map Entry.startedAt)

structure RowFiles.Buried (s : RowFiles α) (pid : Int) (stamp : Option Int) : Prop where
  gone : ∀ row, s.live pid = some row → row.startedAt ≠ stamp
  kept : ∃ row, s.tombstoned pid = some row ∧ row.startedAt = stamp

def RowCall.Settles (s : RowFiles α) : RowCall α → Prop
  | writeEntry _ => True
  | ensureTombstone pid captured =>
      ∀ stamp ∈ s.target pid captured none, (s.ensureTombstone pid captured).Buried pid stamp
  | ensureTombstoneGuarded pid captured expected =>
      (s.ensureTombstoneGuarded pid captured expected).1 = .tombstoned →
        ∀ stamp ∈ s.target pid captured expected,
          (s.ensureTombstoneGuarded pid captured expected).2.Buried pid stamp

/-- There is no tombstone of the pid yet, or there is no row that the call would take and the
tombstone has the stamp of the session that it is about. -/
def RowFiles.Clear (s : RowFiles α) (pid : Int) (captured : Option (Entry α))
    (expectedStartedAt : Option Int) : Prop :=
  ∀ old, s.tombstoned pid = some old →
    (∀ row, s.live pid = some row → conflict row.startedAt expectedStartedAt ≠ none) ∧
      ∀ stamp ∈ s.target pid captured expectedStartedAt, old.startedAt = stamp

def RowCall.Clear (s : RowFiles α) : RowCall α → Prop
  | writeEntry _ => True
  | ensureTombstone pid captured => s.Clear pid captured none
  | ensureTombstoneGuarded pid captured expected => s.Clear pid captured expected

namespace RowFiles

variable {s : RowFiles α} {pid : Int} {captured : Option (Entry α)} {expected : Option Int}

theorem conflict_ne_none {onDisk expected : Option Int} (h : conflict onDisk expected ≠ none) :
    ∃ disk e, onDisk = some disk ∧ expected = some e ∧ disk ≠ e := by
  cases onDisk with
  | none => exact absurd rfl h
  | some disk =>
      cases expected with
      | none => exact absurd rfl h
      | some e =>
          refine ⟨disk, e, rfl, rfl, ?_⟩
          rintro rfl
          simp [conflict] at h

theorem conflict_none (onDisk : Option Int) : conflict onDisk none = none := by
  cases onDisk <;> rfl

theorem target_of_live {row : Entry α} (hlive : s.live pid = some row)
    (hpass : conflict row.startedAt expected = none) :
    s.target pid captured expected = some row.startedAt := by
  rw [target, hlive]
  dsimp only
  rw [hpass]

theorem buried_iff_clear {old : Entry α} (hold : s.tombstoned pid = some old) :
    (∀ stamp ∈ s.target pid captured expected, s.Buried pid stamp) ↔
      s.Clear pid captured expected := by
  constructor
  · intro h old' hold'
    obtain rfl : old' = old := Option.some.inj (hold'.symm.trans hold)
    refine ⟨fun row hlive hpass => ?_, fun stamp hstamp => ?_⟩
    · exact (h _ (target_of_live hlive hpass)).gone row hlive rfl
    · obtain ⟨row, hrow, hsame⟩ := (h stamp hstamp).kept
      obtain rfl : old' = row := Option.some.inj (hold.symm.trans hrow)
      exact hsame
  · intro h stamp hstamp
    obtain ⟨hlive, hsame⟩ := h old hold
    refine ⟨fun row hrow heq => ?_, old, hold, hsame stamp hstamp⟩
    -- a row that does not pass has another stamp than the expected one
    obtain ⟨disk, e, hdisk, rfl, hne⟩ := conflict_ne_none (hlive row hrow)
    rw [target, hrow] at hstamp
    dsimp only at hstamp
    split at hstamp
    next hpass => exact hlive row hrow hpass
    next =>
      obtain rfl : some e = stamp := Option.some.inj hstamp
      exact hne (Option.some.inj (hdisk.symm.trans heq))

theorem buried_tombstone {row : Entry α} (hlive : s.live pid = some row) :
    (s.tombstone pid).1 = true ∧ (s.tombstone pid).2.Buried pid row.startedAt := by
  rw [tombstone, hlive]
  refine ⟨rfl, fun row' hrow' => ?_, row, Function.update_self .., rfl⟩
  dsimp only at hrow'
  rw [Function.update_self] at hrow'
  cases hrow'

theorem tombstone_of_none (hlive : s.live pid = none) : s.tombstone pid = (false, s) := by
  rw [tombstone, hlive]

theorem buried_ensureTombstone (hnone : s.tombstoned pid = none) :
    ∀ stamp ∈ s.target pid captured none, (s.ensureTombstone pid captured).Buried pid stamp := by
  intro stamp hstamp
  have hnew : ¬ (s.tombstoned pid).isSome = true := by simp [hnone]
  rw [ensureTombstone, if_neg hnew]
  cases hlive : s.live pid with
  | some row =>
      obtain ⟨htrue, hburied⟩ := buried_tombstone hlive
      rw [target_of_live hlive (conflict_none row.startedAt)] at hstamp
      obtain rfl : row.startedAt = stamp := Option.some.inj hstamp
      split
      next s' heq => rwa [heq] at hburied
      next s' heq => rw [heq] at htrue; cases htrue
  | none =>
      rw [tombstone_of_none hlive]
      dsimp only
      rw [target, hlive] at hstamp
      obtain ⟨entry, rfl, rfl⟩ : ∃ entry, captured = some entry ∧ entry.startedAt = stamp :=
        Option.map_eq_some_iff.mp hstamp
      refine ⟨fun row hrow => ?_, entry, Function.update_self .., rfl⟩
      exact absurd (hlive.symm.trans hrow) nofun

theorem buried_ensureTombstoneGuarded (hnone : s.tombstoned pid = none)
    (houtcome : (s.ensureTombstoneGuarded pid captured expected).1 = .tombstoned) :
    ∀ stamp ∈ s.target pid captured expected,
      (s.ensureTombstoneGuarded pid captured expected).2.Buried pid stamp := by
  intro stamp hstamp
  have hnew : ¬ (s.tombstoned pid).isSome = true := by simp [hnone]
  rw [ensureTombstoneGuarded, if_neg hnew, tombstoneGuarded] at houtcome ⊢
  cases hlive : s.live pid with
  | some row =>
      rw [hlive, Option.bind_some] at houtcome
      rw [Option.bind_some]
      cases hconflict : conflict row.startedAt expected with
      | some disk =>
          rw [hconflict] at houtcome
          cases houtcome
      | none =>
          obtain ⟨htrue, hburied⟩ := buried_tombstone hlive
          rw [target_of_live hlive hconflict] at hstamp
          obtain rfl : row.startedAt = stamp := Option.some.inj hstamp
          dsimp only
          cases htomb : s.tombstone pid with
          | mk renamed s' =>
              rw [htomb] at htrue hburied
              obtain rfl : renamed = true := htrue
              exact hburied
  | none =>
      rw [hlive, tombstone_of_none hlive] at houtcome
      cases houtcome

theorem ensureTombstone_again (s : RowFiles α) (pid : Int) (captured : Option (Entry α)) :
    (s.ensureTombstone pid captured).ensureTombstone pid captured = s.ensureTombstone pid captured := by
  by_cases hsome : (s.tombstoned pid).isSome = true
  · have hsame : s.ensureTombstone pid captured = s := if_pos hsome
    rw [hsame, hsame]
  · have hnone : s.tombstoned pid = none := by simpa using hsome
    cases htarget : s.target pid captured none with
    | some stamp =>
        -- there is a tombstone now
        obtain ⟨row, hrow, -⟩ := (buried_ensureTombstone hnone stamp htarget).kept
        exact if_pos (by rw [hrow]; rfl)
    | none =>
        have hnothing : s.ensureTombstone pid captured = s := by
          rw [ensureTombstone, if_neg hsome]
          cases hlive : s.live pid with
          | some row =>
              rw [target_of_live hlive (conflict_none row.startedAt)] at htarget
              cases htarget
          | none =>
              rw [target, hlive] at htarget
              rw [tombstone_of_none hlive, Option.map_eq_none_iff.mp htarget]
              rfl
        rw [hnothing, hnothing]

theorem ensureTombstoneGuarded_again (s : RowFiles α) (pid : Int) (captured : Option (Entry α))
    (expected : Option Int) :
    ((s.ensureTombstoneGuarded pid captured expected).2.ensureTombstoneGuarded pid captured
        expected).2 = (s.ensureTombstoneGuarded pid captured expected).2 := by
  by_cases hsome : (s.tombstoned pid).isSome = true
  · have hsame : s.ensureTombstoneGuarded pid captured expected = (.tombstoned, s) := if_pos hsome
    rw [hsame]
    exact congrArg Prod.snd hsame
  · -- what a call leaves is a tombstone, or the files as they were
    have hleaves : (((s.ensureTombstoneGuarded pid captured expected).2).tombstoned pid).isSome = true ∨
        (s.ensureTombstoneGuarded pid captured expected).2 = s := by
      rw [ensureTombstoneGuarded, if_neg hsome, tombstoneGuarded]
      cases hconflict : conflict ((s.live pid).bind Entry.startedAt) expected with
      | some disk => exact .inr rfl
      | none =>
          cases hlive : s.live pid with
          | some row =>
              left
              rw [tombstone, hlive]
              dsimp only
              rw [Function.update_self]
              rfl
          | none =>
              rw [tombstone_of_none hlive]
              cases captured with
              | some captured =>
                  left
                  dsimp only [synthesize]
                  rw [Function.update_self]
                  rfl
              | none => exact .inr rfl
    rcases hleaves with htomb | hsame
    · rw [ensureTombstoneGuarded, if_pos htomb]
    · rw [hsame, hsame]

end RowFiles

theorem RowCall.settles_iff_clear (s : RowFiles α) (c : RowCall α) : c.Settles s ↔ c.Clear s := by
  cases c with
  | writeEntry entry => exact Iff.rfl
  | ensureTombstone pid captured =>
      cases hold : s.tombstoned pid with
      | none =>
          refine iff_of_true (RowFiles.buried_ensureTombstone hold) fun old hold' => ?_
          exact absurd (hold.symm.trans hold') nofun
      | some old =>
          have hsame : s.ensureTombstone pid captured = s := if_pos (by rw [hold]; rfl)
          rw [Settles, hsame]
          exact RowFiles.buried_iff_clear hold
  | ensureTombstoneGuarded pid captured expected =>
      cases hold : s.tombstoned pid with
      | none =>
          refine iff_of_true (RowFiles.buried_ensureTombstoneGuarded hold) fun old hold' => ?_
          exact absurd (hold.symm.trans hold') nofun
      | some old =>
          have hsame : s.ensureTombstoneGuarded pid captured expected = (.tombstoned, s) :=
            if_pos (by rw [hold]; rfl)
          rw [Settles, hsame]
          exact (forall_prop_of_true rfl).trans (RowFiles.buried_iff_clear hold)

/-- **Tombstones across the lives of a pid.** The calls of a run all leave what they say exactly if
no one of them finds a tombstone that is not of its session; and asked twice, a call changes
nothing more. -/
theorem runAll_settles (calls : List (RowCall α)) :
    ((∀ before c after, calls = before ++ c :: after →
        c.Settles (({} : RowFiles α).runAll before)) ↔
      ∀ before c after, calls = before ++ c :: after →
        c.Clear (({} : RowFiles α).runAll before)) ∧
    ∀ (s : RowFiles α) (pid : Int) (captured : Option (Entry α)) (expected : Option Int),
      (s.ensureTombstone pid captured).ensureTombstone pid captured =
          s.ensureTombstone pid captured ∧
        ((s.ensureTombstoneGuarded pid captured expected).2.ensureTombstoneGuarded pid captured
          expected).2 = (s.ensureTombstoneGuarded pid captured expected).2 := by
  refine ⟨?_, fun s pid captured expected => ⟨?_, ?_⟩⟩
  · simp only [RowCall.settles_iff_clear]
  · exact s.ensureTombstone_again pid captured
  · exact s.ensureTombstoneGuarded_again pid captured expected

def session7 (startedAt : Int) : Entry Unit :=
  { pid := some 7, startedAt := some startedAt, updatedAt := none, status := none, rest := () }

/-- The second session with a pid is not tombstoned: its row lives on, and the guarded form says
that it does not. -/
theorem runAll_reused :
    ¬ (RowCall.ensureTombstone 7 (some (session7 2))).Settles
        (({} : RowFiles Unit).runAll
          [.writeEntry (session7 1), .ensureTombstone 7 none, .writeEntry (session7 2)]) ∧
      ¬ (RowCall.ensureTombstoneGuarded 7 (some (session7 2)) (some 2)).Settles
        (({} : RowFiles Unit).runAll
          [.writeEntry (session7 1), .ensureTombstone 7 none, .writeEntry (session7 2)]) := by
  constructor
  · intro h
    exact (h (some 2) rfl).gone (session7 2) rfl rfl
  · intro h
    exact (h rfl (some 2) rfl).gone (session7 2) rfl rfl

end QuorumDispatch.Registry
