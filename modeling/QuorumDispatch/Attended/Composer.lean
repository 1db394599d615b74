import QuorumDispatch.Attended.HumanInput

/-!
The composer of the hosted program next to the journal of the human's draft.

The composer takes every write of human bytes as one burst, on the terms of the
journal. The journal sees the bursts one by one, but those that come while a send
is fired reach the composer in one write. Together they can be long enough for a
paste when none of them was, and then a carriage return that submitted the draft
of the journal is a newline in the composer.
-/

namespace QuorumDispatch.Attended

open Lib

def takeBurst (cfg : FireConfig) (draft bytes : Bytes) : Bytes :=
  bytes.foldl (Journal.pushByte (decide (cfg.pasteThreshold ≤ bytes.length))) draft

/-- A session with its composer. `held` is a history variable: the bursts the lock has
buffered since it was taken last. -/
structure Hosted where
  state : State := {}
  composer : Bytes := []
  held : List Bytes := []
deriving DecidableEq, Repr

/-- What a step of either thread does to the composer. Of the message only its
acceptance counts, which leaves the composer empty. -/
def composerAfter (cfg : FireConfig) (s : State) (composer : Bytes) : Event → Bytes
  | .human bytes _ sent =>
      if s.lock.locked then composer else takeBurst cfg composer (bytes.take sent)
  | .fire a =>
      match s.pc with
      | .clear _ _ => if a.sent < cfg.chord.length then composer else []
      | .inject _ => if a.inject = .finish true then [] else composer
      | .replay draft true _ => takeBurst cfg composer (draft.take a.sent)
      | .flush buffered _ => takeBurst cfg composer (buffered.take a.sent)
      | _ => composer

def heldAfter (s : State) (held : List Bytes) : Event → List Bytes
  | .human bytes _ _ => if s.lock.locked then held ++ [bytes] else held
  | .fire _ => if s.pc = .lock then [] else held

def Hosted.step (cfg : FireConfig) (h : Hosted) (e : Event) : Hosted where
  state := Attended.step cfg h.state e
  composer := composerAfter cfg h.state h.composer e
  held := heldAfter h.state h.held e

def hostedAfter (cfg : FireConfig) (run : List Event) : Hosted := run.foldl (Hosted.step cfg) {}

/-- Whenever no fire holds input back, the composer holds the draft of the journal. -/
def Agrees (h : Hosted) : Prop :=
  h.state.pc.holdsLock = false → (∀ buffered next, h.state.pc ≠ .flush buffered next) →
    h.composer = h.state.journal.draft

/-- The write of the buffered bytes is a paste only if every burst in it that has a
carriage return was one. -/
def SamePaste (cfg : FireConfig) (held : List Bytes) (buffered : Bytes) : Prop :=
  ∀ b ∈ held, carriageReturn ∈ b → b.length < cfg.pasteThreshold →
    buffered.length < cfg.pasteThreshold

instance (cfg : FireConfig) (held : List Bytes) (buffered : Bytes) :
    Decidable (SamePaste cfg held buffered) :=
  inferInstanceAs (Decidable (∀ b ∈ held, _))

/-- The condition on an effect of the fire: a draft is not shown again unless the composer
was cleared, and the bursts that are written together count as the same bursts alone. -/
def FaithfulFire (cfg : FireConfig) (held : List Bytes) (a : Answer) : Pc → Prop
  | .clear draft left => draft ≠ [] → left = max cfg.presses 1 → cfg.chord.length ≤ a.sent
  | .flush buffered _ => SamePaste cfg held buffered
  | _ => True

instance (cfg : FireConfig) (held : List Bytes) (a : Answer) :
    ∀ pc, Decidable (FaithfulFire cfg held a pc)
  | .clear draft left => inferInstanceAs (Decidable
      (draft ≠ [] → left = max cfg.presses 1 → cfg.chord.length ≤ a.sent))
  | .flush buffered _ => inferInstanceAs (Decidable (SamePaste cfg held buffered))
  | .idle | .gate | .lock | .verify .. | .start .. | .reverify .. | .inject .. | .complete ..
  | .replay .. | .unlock .. | .landing => .isTrue trivial

/-- The condition on a step, human bytes being written whole and in order besides. -/
def FaithfulEvent (cfg : FireConfig) (h : Hosted) : Event → Prop
  | .human bytes nowMs sent => CleanEvent h.state (.human bytes nowMs sent)
  | .fire a => CleanEvent h.state (.fire a) ∧ FaithfulFire cfg h.held a h.state.pc

instance (cfg : FireConfig) (h : Hosted) : ∀ e, Decidable (FaithfulEvent cfg h e)
  | .human bytes nowMs sent =>
      inferInstanceAs (Decidable (CleanEvent h.state (.human bytes nowMs sent)))
  | .fire a => inferInstanceAs (Decidable (CleanEvent h.state (.fire a) ∧ _))

/-! ### Bursts -/

section Bursts

variable {cfg : FireConfig} {paste paste' : Bool} {draft bytes : Bytes}

theorem foldl_pushByte_of_not_mem (h : carriageReturn ∉ bytes) :
    bytes.foldl (Journal.pushByte paste) draft = draft ++ bytes := by
  induction bytes generalizing draft with
  | nil => simp
  | cons b bytes ih =>
      have hb : b ≠ carriageReturn := fun hb => h (hb ▸ List.mem_cons_self)
      have hrest : carriageReturn ∉ bytes := fun hmem => h (List.mem_cons_of_mem _ hmem)
      rw [List.foldl_cons, ih hrest]
      simp [Journal.pushByte, hb]

theorem carriageReturn_not_mem_foldl (h : carriageReturn ∉ draft) :
    carriageReturn ∉ bytes.foldl (Journal.pushByte paste) draft := by
  induction bytes generalizing draft with
  | nil => exact h
  | cons b bytes ih =>
      rw [List.foldl_cons]
      apply ih
      unfold Journal.pushByte
      split
      · split
        · simpa [carriageReturn, newline] using h
        · simp
      · next hb => simpa [h] using fun h => hb h.symm

@[simp] theorem takeBurst_nil : takeBurst cfg draft [] = draft := rfl

/-- A draft that is put back in an empty composer comes out as it was. -/
theorem takeBurst_of_not_mem (h : carriageReturn ∉ bytes) :
    takeBurst cfg draft bytes = draft ++ bytes := foldl_pushByte_of_not_mem h

/-- Bursts that count as the same in one write give the same draft. -/
theorem foldl_takeBurst_eq {held : List Bytes}
    (h : ∀ b ∈ held, carriageReturn ∈ b → decide (cfg.pasteThreshold ≤ b.length) = paste) :
    held.foldl (takeBurst cfg) draft = held.flatten.foldl (Journal.pushByte paste) draft := by
  induction held generalizing draft with
  | nil => rfl
  | cons b held ih =>
      rw [List.foldl_cons, List.flatten_cons, List.foldl_append,
        ih fun b' hb' => h b' (List.mem_cons_of_mem _ hb')]
      congr 1
      by_cases hcr : carriageReturn ∈ b
      · rw [takeBurst, h b List.mem_cons_self hcr]
      · rw [takeBurst_of_not_mem hcr, foldl_pushByte_of_not_mem hcr]

theorem foldl_takeBurst_flatten {held : List Bytes} (h : SamePaste cfg held held.flatten) :
    held.foldl (takeBurst cfg) draft = takeBurst cfg draft held.flatten := by
  apply foldl_takeBurst_eq
  intro b hb hcr
  have hle : b.length ≤ held.flatten.length := (List.sublist_flatten_of_mem hb).length_le
  have hsame := h b hb hcr
  rw [decide_eq_decide]
  constructor
  · omega
  · intro hpaste
    by_contra hlt
    have := hsame (by omega)
    omega

theorem foldl_takeBurst_of_flatten_nil {held : List Bytes} (h : held.flatten = []) :
    held.foldl (takeBurst cfg) draft = draft := by
  induction held with
  | nil => rfl
  | cons b held ih =>
      rw [List.flatten_cons, List.append_eq_nil_iff] at h
      rw [List.foldl_cons, h.1, takeBurst_nil]
      exact ih h.2

end Bursts

/-! ### The invariant -/

def ComposerStands (cfg : FireConfig) (h : Hosted) : Prop :=
  match h.state.pc with
  | .idle | .gate | .lock | .landing => h.composer = h.state.journal.draft
  | .verify .. | .start .. | .replay _ false _ | .unlock .. => h.composer = h.state.snapshot
  | .clear _ left => h.composer = h.state.snapshot ∧ left = max cfg.presses 1 ∨
      h.composer = [] ∧ left < max cfg.presses 1
  | .reverify .. | .inject .. | .complete .. | .replay _ true _ => h.composer = []
  | .flush buffered _ => h.held.flatten = buffered ∧
      h.held.foldl (takeBurst cfg) h.composer = h.state.journal.draft

structure ComposerInv (cfg : FireConfig) (h : Hosted) : Prop where
  inv : Inv h.state
  plain : carriageReturn ∉ h.state.journal.draft
  snapshot : carriageReturn ∉ h.state.snapshot
  held : h.state.pc.holdsLock = true → h.held.flatten = h.state.lock.buffer ∧
    h.held.foldl (takeBurst cfg) h.state.snapshot = h.state.journal.draft
  stands : ComposerStands cfg h

theorem ComposerInv.agrees {cfg : FireConfig} {h : Hosted} (hinv : ComposerInv cfg h) :
    Agrees h := by
  intro hholds hflush
  have hstands := hinv.stands
  unfold ComposerStands at hstands
  cases hpc : h.state.pc <;> simp only [hpc] at hstands hholds hflush
  case flush buffered next => exact absurd rfl (hflush buffered next)
  case idle => exact hstands
  case gate => exact hstands
  case lock => exact hstands
  case landing => exact hstands
  all_goals cases hholds

/-! ### The invariant is kept -/

section Steps

variable {cfg : FireConfig} {h : Hosted}

theorem journal_humanInput (cfg : FireConfig) (s : State) (bytes : Bytes) (nowMs : Int)
    (sent : Nat) : (humanInput cfg s bytes nowMs sent).journal.draft =
      takeBurst cfg s.journal.draft bytes := by
  unfold humanInput InputLock.admit
  cases hlocked : s.lock.locked <;>
    simp [hlocked, Journal.onHumanInput, takeBurst, State.emit]

theorem ComposerInv.human {bytes : Bytes} {nowMs : Int} {sent : Nat} (hinv : ComposerInv cfg h)
    (hclean : CleanEvent h.state (.human bytes nowMs sent)) :
    ComposerInv cfg (h.step cfg (.human bytes nowMs sent)) := by
  have hmove := humanInput_move cfg h.state bytes nowMs sent
  have hjournal := journal_humanInput cfg h.state bytes nowMs sent
  have hpc : (h.step cfg (.human bytes nowMs sent)).state.pc = h.state.pc := hmove.pc
  have hsnap : (h.step cfg (.human bytes nowMs sent)).state.snapshot = h.state.snapshot :=
    hmove.snapshot
  have hdraft : (h.step cfg (.human bytes nowMs sent)).state.journal.draft =
      takeBurst cfg h.state.journal.draft bytes := hjournal
  have hlock := hmove.lock
  refine ⟨human_inv hinv.inv hclean hmove, ?_, ?_, ?_, ?_⟩
  · rw [hdraft]
    exact carriageReturn_not_mem_foldl hinv.plain
  · rw [hsnap]
    exact hinv.snapshot
  · intro hholds
    rw [hpc] at hholds
    have hlocked : h.state.lock.locked = true := by rw [hinv.inv.locked, hholds]
    obtain ⟨hflat, hfold⟩ := hinv.held hholds
    rw [if_pos hlocked] at hlock
    have hheld : (h.step cfg (.human bytes nowMs sent)).held = h.held ++ [bytes] := by
      simp [Hosted.step, heldAfter, hlocked]
    have hbuffer : (h.step cfg (.human bytes nowMs sent)).state.lock.buffer =
        h.state.lock.buffer ++ bytes := congrArg InputLock.buffer hlock
    rw [hheld, hbuffer, hsnap, hdraft]
    simp [hflat, hfold]
  · cases hlocked : h.state.lock.locked with
    | true =>
        -- a fire holds the lock, so neither the composer nor its place change
        have hholds : h.state.pc.holdsLock = true := by rw [← hinv.inv.locked, hlocked]
        have hcomposer : (h.step cfg (.human bytes nowMs sent)).composer = h.composer := by
          simp [Hosted.step, composerAfter, hlocked]
        have hstands := hinv.stands
        unfold ComposerStands at hstands ⊢
        rw [hpc, hcomposer, hsnap]
        cases hpc' : h.state.pc <;> rw [hpc'] at hstands hholds
        case idle => cases hholds
        case gate => cases hholds
        case lock => cases hholds
        case landing => cases hholds
        case flush => cases hholds
        case replay draft cleared next => cases cleared <;> exact hstands
        all_goals exact hstands
    | false =>
        -- the burst goes to both, unless the fire is about to write out what it took
        have hholds : h.state.pc.holdsLock = false := by rw [← hinv.inv.locked, hlocked]
        have hcomposer : (h.step cfg (.human bytes nowMs sent)).composer =
            takeBurst cfg h.composer bytes := by
          simp [Hosted.step, composerAfter, hlocked, List.take_of_length_le (hclean.2 hlocked)]
        have hheld : (h.step cfg (.human bytes nowMs sent)).held = h.held := by
          simp [Hosted.step, heldAfter, hlocked]
        have hstands := hinv.stands
        unfold ComposerStands at hstands ⊢
        rw [hpc, hcomposer, hdraft, hheld]
        cases hpc' : h.state.pc <;> rw [hpc'] at hstands hholds
        case idle => exact congrArg (takeBurst cfg · bytes) hstands
        case gate => exact congrArg (takeBurst cfg · bytes) hstands
        case lock => exact congrArg (takeBurst cfg · bytes) hstands
        case landing => exact congrArg (takeBurst cfg · bytes) hstands
        case flush buffered next =>
          obtain ⟨hflat, hfold⟩ := hstands
          refine ⟨hflat, ?_⟩
          by_cases hempty : bytes = []
          · rw [hempty]
            exact hfold
          · have hnone : buffered = [] := by
              have := hclean.1 hempty
              rwa [State.drained, hpc'] at this
            have hnil : h.held.flatten = [] := hflat.trans hnone
            rw [foldl_takeBurst_of_flatten_nil hnil] at hfold ⊢
            rw [hfold]
        all_goals cases hholds

theorem journal_landingStep (cfg : FireConfig) (s : State) (a : Answer) :
    (landingStep cfg s a).journal = s.journal := by
  unfold landingStep
  repeat' split
  all_goals rfl

theorem journal_fireStep (cfg : FireConfig) (s : State) (a : Answer) :
    (fireStep cfg s a).journal = s.journal := by
  cases hpc : s.pc with
  | landing =>
      simp only [fireStep, hpc]
      exact journal_landingStep cfg s a
  | _ =>
      simp only [fireStep, hpc]
      repeat' split
      all_goals rfl

/-- What the fire leaves alone but when it takes or releases the lock. -/
theorem fireStep_frame (cfg : FireConfig) {s : State} (a : Answer) (hlock : s.pc ≠ .lock)
    (hunlock : ∀ next, s.pc ≠ .unlock next) :
    (fireStep cfg s a).snapshot = s.snapshot ∧ (fireStep cfg s a).lock = s.lock ∧
      (fireStep cfg s a).pc.holdsLock = s.pc.holdsLock := by
  cases fireStep_move cfg s a with
  | quiet es hlock' _ _ _ _ _ hsnap hholds => exact ⟨hsnap, hlock', hholds⟩
  | lock hpc => exact absurd hpc hlock
  | replay draft cleared next hpc hs' =>
      rw [hs', hpc]
      exact ⟨rfl, rfl, rfl⟩
  | unlock next hpc => exact absurd hpc (hunlock next)
  | flush buffered next hpc hlock' _ _ _ _ hsnap hpc' =>
      refine ⟨hsnap, hlock', ?_⟩
      obtain hpc' | hpc' := hpc' <;> rw [hpc', hpc] <;> rfl

theorem ComposerInv.fire {a : Answer} (hinv : ComposerInv cfg h)
    (hclean : CleanEvent h.state (.fire a)) (hlock : h.state.pc ≠ .lock)
    (hstands : ComposerStands cfg (h.step cfg (.fire a))) :
    ComposerInv cfg (h.step cfg (.fire a)) := by
  have hjournal : (h.step cfg (.fire a)).state.journal = h.state.journal :=
    journal_fireStep cfg h.state a
  have hheld : (h.step cfg (.fire a)).held = h.held := by
    simp [Hosted.step, heldAfter, hlock]
  have hsnap : (h.step cfg (.fire a)).state.snapshot = h.state.snapshot := by
    cases fireStep_move cfg h.state a with
    | quiet _ _ _ _ _ _ _ hsnap => exact hsnap
    | lock hpc => exact absurd hpc hlock
    | replay _ _ _ _ hs' => exact (congrArg State.snapshot hs' :)
    | unlock _ _ hs' => exact (congrArg State.snapshot hs' :)
    | flush _ _ _ _ _ _ _ _ hsnap => exact hsnap
  refine ⟨fire_inv hinv.inv hclean (fireStep_move cfg h.state a), ?_, ?_, ?_, hstands⟩
  · rw [hjournal]
    exact hinv.plain
  · rw [hsnap]
    exact hinv.snapshot
  · intro hholds
    have hunlock : ∀ next, h.state.pc ≠ .unlock next := by
      intro next hpc
      simp [Hosted.step, step, fireStep, hpc, Pc.holdsLock] at hholds
    obtain ⟨-, hlock', hholds'⟩ := fireStep_frame cfg a hlock hunlock
    obtain ⟨hflat, hfold⟩ := hinv.held (hholds' ▸ hholds)
    rw [hheld, hsnap, hjournal]
    exact ⟨hflat.trans (congrArg InputLock.buffer hlock').symm, hfold⟩

theorem ComposerInv.lock {a : Answer} (hinv : ComposerInv cfg h)
    (hclean : CleanEvent h.state (.fire a)) (hpc : h.state.pc = .lock) :
    ComposerInv cfg (h.step cfg (.fire a)) := by
  have hstep : fireStep cfg h.state a = { h.state with
      lock := h.state.lock.lock
      pc := .verify h.state.journal.draft 0
      traceMark := h.state.trace.length
      typedMark := h.state.typed.length
      snapshot := h.state.journal.draft } := by
    simp only [fireStep, hpc]
  have hbuffer : h.state.lock.buffer = [] := hinv.inv.buffer (by rw [hinv.inv.locked, hpc]; rfl)
  have hheld : (h.step cfg (.fire a)).held = [] := by simp [Hosted.step, heldAfter, hpc]
  have hcomposer : (h.step cfg (.fire a)).composer = h.composer := by
    simp [Hosted.step, composerAfter, hpc]
  have hstate : (h.step cfg (.fire a)).state = fireStep cfg h.state a := rfl
  refine ⟨fire_inv hinv.inv hclean (fireStep_move cfg h.state a), ?_, ?_, ?_, ?_⟩
  · rw [hstate, hstep]
    exact hinv.plain
  · rw [hstate, hstep]
    exact hinv.plain
  · intro _
    rw [hheld, hstate, hstep]
    exact ⟨hbuffer.symm, rfl⟩
  · have hstands := hinv.stands
    simp only [ComposerStands, hpc] at hstands
    simp only [ComposerStands, hcomposer, hstate, hstep]
    exact hstands

theorem Inv.draft_eq {s : State} {draft : Bytes} (hinv : Inv s) (h : s.pc.draft? = some draft) :
    draft = s.snapshot := by
  cases hinv.segmentOk with
  | before _ hsome => exact Option.some.inj (h.symm.trans hsome)
  | after _ _ hnone => cases h.symm.trans hnone

theorem composerStands_fire {a : Answer} (hinv : ComposerInv cfg h)
    (hclean : CleanEvent h.state (.fire a)) (hlock : h.state.pc ≠ .lock)
    (hfire : FaithfulFire cfg h.held a h.state.pc) :
    ComposerStands cfg (h.step cfg (.fire a)) := by
  have hstands := hinv.stands
  have hheld := hinv.held
  have hstate : (h.step cfg (.fire a)).state = fireStep cfg h.state a := rfl
  have hcomposer : (h.step cfg (.fire a)).composer =
    composerAfter cfg h.state h.composer (.fire a) := rfl
  have hheld' : (h.step cfg (.fire a)).held = h.held := by simp [Hosted.step, heldAfter, hlock]
  unfold ComposerStands at hstands ⊢
  rw [hstate, hcomposer, hheld']
  cases hpc : h.state.pc <;> simp only [hpc] at hstands hheld hfire
  case lock => exact absurd hpc hlock
  case idle =>
    simp only [fireStep, composerAfter, hpc]
    exact hstands
  case gate =>
    simp only [fireStep, composerAfter, hpc]
    split_ifs <;> exact hstands
  case verify =>
    simp only [fireStep, composerAfter, hpc]
    split_ifs <;> exact hstands
  case start =>
    simp only [fireStep, composerAfter, hpc]
    split_ifs
    · exact .inl ⟨hstands, rfl⟩
    · exact hstands
  case clear draft left =>
    have hdraft : draft = h.state.snapshot := hinv.inv.draft_eq (by rw [hpc]; rfl)
    simp only [fireStep, composerAfter, hpc]
    by_cases hsent : a.sent < cfg.chord.length
    · -- a first press that failed left the draft in the composer, so there was none
      rw [if_pos hsent, if_pos hsent]
      obtain ⟨hcomposer, hleft⟩ | ⟨hcomposer, -⟩ := hstands
      · have hempty : draft = [] := by
          by_contra hne
          exact absurd (hfire hne hleft) (Nat.not_le.mpr hsent)
        exact hcomposer.trans (hdraft.symm.trans hempty)
      · exact hcomposer
    · rw [if_neg hsent, if_neg hsent]
      have hle : left ≤ max cfg.presses 1 := hstands.elim (·.2.le) (·.2.le)
      split_ifs
      · exact .inr ⟨rfl, by omega⟩
      · rfl
      · rfl
  case reverify =>
    simp only [fireStep, composerAfter, hpc]
    split_ifs <;> exact hstands
  case inject =>
    have hempty : composerAfter cfg h.state h.composer (.fire a) = [] := by
      simp [composerAfter, hpc, hstands]
    rw [hempty]
    simp only [fireStep, hpc]
    cases a.inject with
    | text chunk =>
        simp only [State.emit, hpc]
    | cr => simp only [State.emit, hpc]
    | finish accepted =>
        dsimp only
        split_ifs <;> exact trivial
  case complete =>
    simp only [fireStep, composerAfter, hpc]
    exact hstands
  case replay draft cleared next =>
    have hdraft : draft = h.state.snapshot := hinv.inv.draft_eq (by rw [hpc]; rfl)
    have hpc' : (fireStep cfg h.state a).pc = .unlock next := by
      simp only [fireStep, hpc]
      split_ifs <;> rfl
    have hsnap : (fireStep cfg h.state a).snapshot = h.state.snapshot :=
      (fireStep_frame cfg a hlock (by simp [hpc])).1
    rw [hpc', hsnap]
    cases cleared with
    | false =>
        simp only [composerAfter, hpc]
        exact hstands
    | true =>
        have hsent : draft.length ≤ a.sent := by
          have := hclean.2
          rwa [State.replaying, hpc] at this
        simp only [composerAfter, hpc, List.take_of_length_le hsent]
        rw [hdraft, takeBurst_of_not_mem hinv.snapshot, hstands, List.nil_append]
  case unlock next =>
    obtain ⟨hflat, hfold⟩ := hheld rfl
    simp only [fireStep, composerAfter, hpc, InputLock.unlockAndDrain]
    rw [hstands]
    exact ⟨hflat, hfold⟩
  case flush buffered next =>
    obtain ⟨hflat, hfold⟩ := hstands
    have hsent : buffered.length ≤ a.sent := by
      have := hclean.1
      rwa [State.drained, hpc] at this
    have hcomposer' : composerAfter cfg h.state h.composer (.fire a) = h.state.journal.draft := by
      simp only [composerAfter, hpc, List.take_of_length_le hsent]
      rw [← hfold, ← hflat]
      exact (foldl_takeBurst_flatten (hflat ▸ hfire)).symm
    rw [hcomposer', journal_fireStep]
    have hpc' : (fireStep cfg h.state a).pc = .idle ∨ (fireStep cfg h.state a).pc = .landing := by
      cases next <;> simp [fireStep, hpc, State.finish, State.goto]
    obtain hpc' | hpc' := hpc' <;> rw [hpc']
  case landing =>
    have hpc' : (fireStep cfg h.state a).pc = .idle ∨ (fireStep cfg h.state a).pc = .landing := by
      simp only [fireStep, hpc, landingStep]
      cases a.scan with
      | landed => exact .inl rfl
      | mismatch => exact .inl rfl
      | unconfirmed =>
          dsimp only
          split_ifs
          · exact .inl rfl
          · exact .inl rfl
          · exact .inr hpc
    have hcomposer' : composerAfter cfg h.state h.composer (.fire a) = h.composer := by
      simp only [composerAfter, hpc]
    rw [hcomposer', journal_fireStep]
    obtain hpc' | hpc' := hpc' <;> rw [hpc'] <;> exact hstands

theorem ComposerInv.step {e : Event} (hinv : ComposerInv cfg h) (hfaithful : FaithfulEvent cfg h e) :
    ComposerInv cfg (h.step cfg e) := by
  cases e with
  | human bytes nowMs sent => exact hinv.human hfaithful
  | fire a =>
      obtain ⟨hclean, hfire⟩ := hfaithful
      by_cases hlock : h.state.pc = .lock
      · exact hinv.lock hclean hlock
      · exact hinv.fire hclean hlock (composerStands_fire hinv hclean hlock hfire)

end Steps

theorem composerInv_init (cfg : FireConfig) : ComposerInv cfg {} :=
  ⟨inv_init, by simp, by simp, fun h => (by cases h), rfl⟩

/-- In every interleaving of bursts and fires whose steps all meet the condition, the
composer agrees with the journal in every state reached. -/
theorem composer_agrees_of_faithful (cfg : FireConfig) (run : List Event)
    (hfaithful : Along (Hosted.step cfg) (FaithfulEvent cfg) {} run) (pre post : List Event)
    (hrun : run = pre ++ post) : Agrees (hostedAfter cfg pre) := by
  subst hrun
  have hinv : ComposerInv cfg (hostedAfter cfg pre) :=
    Along.invariant (fun _ _ => ComposerInv.step) (composerInv_init cfg) hfaithful.front
  exact hinv.agrees

theorem composer_agrees_fireWithHuman :
    Agrees (hostedAfter safeDefaultFacts
      (fireWithHuman ++ [Event.fire .good, Event.human [121] 2 1000, Event.fire .good])) :=
  composer_agrees_of_faithful safeDefaultFacts
    (fireWithHuman ++ [Event.fire .good, Event.human [121] 2 1000, Event.fire .good]) (by decide) _ []
    (List.append_nil _).symm

/-- While the composer is cleared the human types `abcd`, submits it, and types `efgh`. -/
def submitDuringFire : List Event :=
  List.replicate 5 (Event.fire .good) ++
    [Event.human [97, 98, 99, 100] 0 1000, Event.human [13] 1 1000, Event.human [101, 102, 103, 104] 2 1000] ++
    List.replicate 6 (Event.fire .good)

/-- The journal is left with `efgh`. The composer is written the nine bytes at once and
takes them for a paste. -/
theorem submitDuringFire_not_agrees :
    ¬Agrees (hostedAfter safeDefaultFacts submitDuringFire) := by
  intro h
  have hcomposer : (hostedAfter safeDefaultFacts submitDuringFire).composer =
      (hostedAfter safeDefaultFacts submitDuringFire).state.journal.draft := by
    apply h
    · decide
    · intro buffered next hpc
      have hidle : (hostedAfter safeDefaultFacts submitDuringFire).state.pc = .landing := by
        decide
      cases hidle.symm.trans hpc
  revert hcomposer
  decide

end QuorumDispatch.Attended
