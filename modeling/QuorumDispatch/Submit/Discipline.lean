import QuorumDispatch.Pty.Verify

/-!
A prompt is submitted, and it is watched whether the session went busy. If it did not, the return is
sent once more: never to a session that was read as busy, and with a composer to look at only while
it still holds the message.
-/

namespace QuorumDispatch.Submit

open Lib

/-! ### The composer on the screen -/

def minRuleRun : Nat := 3

def promptGlyph : Char := '❯'

inductive ComposerRegion where
  /-- From the last glyph on, or all of the screen when there is none. -/
  | glyphAnchor (glyph : Char)
  /-- Between the last two lines that are rules. -/
  | betweenLastTwo (rule : Char)
deriving DecidableEq, Repr

/-- Where `strip_ansi` is within a sequence. -/
inductive StripMode where
  | text
  | escape
  | csi
  | osc
  | oscEscape
  | designation
deriving DecidableEq, Repr

/-- The text of a screen behind a state of the scan. A byte that is not ASCII belongs to a character
that is kept or dropped as a whole, so that the scan goes by characters. -/
def stripFrom : StripMode → List Char → List Char
  | _, [] => []
  | .text, c :: rest =>
      if c = '\x1b' then stripFrom .escape rest
      else if c = '\n' ∨ c = '\t' then c :: stripFrom .text rest
      else if c.toNat < 0x20 ∨ c.toNat = 0x7f then stripFrom .text rest
      else c :: stripFrom .text rest
  | .escape, c :: rest =>
      if c = '[' then stripFrom .csi rest
      else if c = ']' then stripFrom .osc rest
      else if c = '(' ∨ c = ')' ∨ c = '*' ∨ c = '+' then stripFrom .designation rest
      else stripFrom .text rest
  | .csi, c :: rest =>
      if 0x40 ≤ c.toNat ∧ c.toNat ≤ 0x7e then stripFrom .text rest else stripFrom .csi rest
  | .osc, c :: rest =>
      if c = '\x07' then stripFrom .text rest
      else if c = '\x1b' then stripFrom .oscEscape rest
      else stripFrom .osc rest
  | .oscEscape, c :: rest =>
      if c = '\\' ∨ c = '\x07' then stripFrom .text rest
      else if c = '\x1b' then stripFrom .oscEscape rest
      else stripFrom .osc rest
  | .designation, _ :: rest => stripFrom .text rest

def stripAnsi (input : List Char) : List Char := stripFrom .text input

def normalizeFrom (inWs : Bool) (out : List Char) : List Char → List Char
  | [] => out
  | c :: rest =>
      if isWhitespace c then normalizeFrom true out rest
      else normalizeFrom false (out ++ (if inWs && !out.isEmpty then [' '] else []) ++ [c]) rest

def normalizeWs (s : List Char) : List Char := normalizeFrom false [] s

def isRuleLine (line : List Char) (rule : Char) : Bool :=
  line.all (fun c => c == rule || isWhitespace c) && minRuleRun ≤ line.count rule

def ruleLines (rule : Char) (pos : Nat) : List (List Char) → List (Nat × Nat)
  | [] => []
  | line :: rest =>
      (if isRuleLine line rule then [(pos, pos + line.length)] else []) ++
        ruleLines rule (pos + line.length + 1) rest

def betweenLastTwoRules (clean : List Char) (rule : Char) : Option (List Char) :=
  match (ruleLines rule 0 (clean.splitOn '\n')).reverse with
  | bottom :: top :: _ =>
      let regionStart := min top.2 clean.length
      let regionEnd := min bottom.1 clean.length
      if regionStart ≤ regionEnd then some ((clean.take regionEnd).drop regionStart) else none
  | _ => none

def regionOf (clean : List Char) : ComposerRegion → Option (List Char)
  | .glyphAnchor g =>
      if g ∈ clean then some (g :: (clean.reverse.takeWhile (· != g)).reverse) else some clean
  | .betweenLastTwo rule => betweenLastTwoRules clean rule

def composerHoldsMessageIn (screen message : List Char) (region : ComposerRegion) : Bool :=
  let needle := normalizeWs (stripAnsi message)
  if needle.isEmpty then false
  else
    match regionOf (stripAnsi screen) region with
    | some r => decide (needle <:+: normalizeWs r)
    | none => false

example : composerHoldsMessageIn "> hello\n❯ hello \x1b[1mthere".toList "hello  there".toList
    (.glyphAnchor promptGlyph) = true := by decide

/-! ### What is asked -/

inductive Query where
  | readStatus
  | readScreen
  | sendText (text : List Char)
  | sendCr
  | sleep (ms : Nat)
  | nowMs
  | findPidFile
deriving DecidableEq, Repr

@[reducible] def Answer : Query → Type
  | .readStatus => Option String
  | .readScreen => List Char
  | .nowMs => Int
  | .findPidFile => Option String
  | .sendText _ | .sendCr | .sleep _ => Unit

abbrev SubmitM := Dialog Query Answer

abbrev History := List (Exchange Query Answer)

abbrev ask (q : Query) : SubmitM (Answer q) := Dialog.query q

/-! ### The submission -/

def busy : String := "busy"

structure SubmitOptions where
  settleMs : Nat := 2500
  postCrMs : Nat := 13000
  pollMs : Nat := 250
deriving DecidableEq, Repr

structure SubmitOutcome where
  accepted : Bool
  crsFired : Nat
  suppressedBusyCr : Bool
deriving DecidableEq, Repr

/-- The loop of `wait_for_busy`, with the number of its rounds bounded. -/
def waitLoop (deadline : Int) (pollMs : Nat) : Nat → SubmitM (Option Bool)
  | 0 => pure none
  | polls + 1 => do
      let status : Option String ← ask .readStatus
      if status = some busy then return some true
      let now : Int ← ask .nowMs
      if deadline ≤ now then return some false
      let now : Int ← ask .nowMs
      let _ ← ask (.sleep (min pollMs (max (deadline - now) 0).toNat))
      waitLoop deadline pollMs polls

def waitForBusy (polls windowMs pollMs : Nat) : SubmitM (Option Bool) := do
  let now : Int ← ask .nowMs
  waitLoop (now + windowMs) pollMs polls

/-- What a submission looks at before its return: nothing, or the composer. -/
abbrev Composer := Option (List Char × ComposerRegion)

/-- `send_cr` of the plain submission and of `ContentVerifiedSubmit`. -/
def remediationCr : Composer → SubmitM Unit
  | none => ask .sendCr
  | some (message, region) => do
      let screen : List Char ← ask .readScreen
      if composerHoldsMessageIn screen message region then ask .sendCr else pure ()

def remediate (composer : Composer) (polls : Nat) (opts : SubmitOptions) :
    SubmitM (Option SubmitOutcome) := do
  let status : Option String ← ask .readStatus
  if status = some busy then
    return some { accepted := true, crsFired := 0, suppressedBusyCr := true }
  remediationCr composer
  let accepted ← waitForBusy polls opts.postCrMs opts.pollMs
  return accepted.map fun accepted => { accepted, crsFired := 1, suppressedBusyCr := false }

def verifyAcceptedThenCr (composer : Composer) (polls : Nat) (opts : SubmitOptions) :
    SubmitM (Option SubmitOutcome) := do
  let settled ← waitForBusy polls opts.settleMs opts.pollMs
  match settled with
  | none => return none
  | some true => return some { accepted := true, crsFired := 0, suppressedBusyCr := false }
  | some false => remediate composer polls opts

/-! ### The deliveries -/

def twoWriteSettleMs : Nat := 200

structure ChunkSendOptions where
  chunkBytes : Nat := Pty.chunkBytes
  settleMs : Nat := 150
deriving DecidableEq, Repr

def sendChunks (settleMs : Nat) : List (List Char) → SubmitM Unit
  | [] => pure ()
  | chunk :: rest => do
      let _ ← ask (.sleep settleMs)
      let _ ← ask (.sendText chunk)
      sendChunks settleMs rest

def sendTextChunked (message : List Char) (opts : ChunkSendOptions) : SubmitM Unit :=
  match Pty.chunkText message opts.chunkBytes with
  | [] => pure ()
  | chunk :: rest => do
      let _ ← ask (.sendText chunk)
      sendChunks opts.settleMs rest

/-- The text, and what comes before the return that submits it. -/
def typeMessage (message : List Char) (chunkOpts : ChunkSendOptions) : SubmitM Unit := do
  sendTextChunked message chunkOpts
  ask (.sleep twoWriteSettleMs)

def deliverIdleTwoWriteWithRegion (message : List Char) (opts : SubmitOptions)
    (chunkOpts : ChunkSendOptions) (region : ComposerRegion) (polls : Nat) :
    SubmitM (Option SubmitOutcome) := do
  typeMessage message chunkOpts
  let _ ← ask .sendCr
  verifyAcceptedThenCr (some (message, region)) polls opts

def deliverIdleTwoWrite (message : List Char) (opts : SubmitOptions) (polls : Nat) :
    SubmitM (Option SubmitOutcome) :=
  deliverIdleTwoWriteWithRegion message opts {} (.glyphAnchor promptGlyph) polls

inductive DeliverOutcome where
  | accepted
  | stalled
  | pidFileMissing
deriving DecidableEq, Repr

def maxRounds : Nat := 3

/-- The rounds that are left while the session is not accepted. -/
def deliverRounds (message : List Char) (perRoundMs polls : Nat) :
    Nat → SubmitOutcome → SubmitM (Option DeliverOutcome)
  | rounds, outcome =>
      if outcome.accepted then pure (some .accepted)
      else
        match rounds with
        | 0 => pure (some .stalled)
        | rounds + 1 => do
            let next ← verifyAcceptedThenCr (some (message, .glyphAnchor promptGlyph)) polls
              { settleMs := 0, postCrMs := perRoundMs }
            match next with
            | none => return none
            | some outcome => deliverRounds message perRoundMs polls rounds outcome

def perRound (timeoutS : Nat) : Nat := max (timeoutS * 1000 - 2500) 8000

/-- The rounds behind the message, with the adapters that the create path binds. -/
def verifyRounds (message : List Char) (timeoutS polls : Nat) : SubmitM (Option DeliverOutcome) := do
  let first ← verifyAcceptedThenCr (some (message, .glyphAnchor promptGlyph)) polls
    { settleMs := 2500, postCrMs := perRound timeoutS }
  match first with
  | none => return none
  | some outcome => deliverRounds message (perRound timeoutS) polls maxRounds outcome

def verifyPrompt (message : List Char) (timeoutS polls : Nat) : SubmitM (Option DeliverOutcome) := do
  let pidFile : Option String ← ask .findPidFile
  match pidFile with
  | none => return some .pidFileMissing
  | some _ => verifyRounds message timeoutS polls

def deliverPrompt (message : List Char) (timeoutS polls : Nat) : SubmitM (Option DeliverOutcome) := do
  typeMessage message {}
  let _ ← ask .sendCr
  verifyPrompt message timeoutS polls

/-! ### What a run asked -/

def BusySeen (es : History) : Prop := (⟨.readStatus, some busy⟩ : Exchange Query Answer) ∈ es

def crs (es : History) : Nat := es.countP (·.question == .sendCr)

/-- The clock of a run never goes back, and a sleep moves it. Where a poll does sleep, that is only
asked of the sleeps that last. -/
structure Advancing (pollMs : Nat) (es : History) : Prop where
  monotone : ∀ t t' : Int,
    List.Sublist [(⟨.nowMs, t⟩ : Exchange Query Answer), ⟨.nowMs, t'⟩] es → t ≤ t'
  slept : ∀ (t t' : Int) (ms : Nat), 0 < ms ∨ pollMs = 0 →
    List.Sublist [(⟨.nowMs, t⟩ : Exchange Query Answer), ⟨.sleep ms, ()⟩, ⟨.nowMs, t'⟩] es → t < t'

theorem Advancing.sublist {pollMs : Nat} {es es' : History} (h : Advancing pollMs es)
    (hsub : List.Sublist es' es) : Advancing pollMs es' where
  monotone t t' ht := h.monotone t t' (ht.trans hsub)
  slept t t' ms hms ht := h.slept t t' ms hms (ht.trans hsub)

theorem Advancing.tail {pollMs : Nat} {e : Exchange Query Answer} {es : History}
    (h : Advancing pollMs (e :: es)) : Advancing pollMs es :=
  h.sublist (List.sublist_cons_self e es)

def Waits : Query → Prop
  | .readStatus | .nowMs | .sleep _ => True
  | _ => False

theorem crs_eq_zero {es : History} (h : ∀ e ∈ es, e.question ≠ .sendCr) : crs es = 0 :=
  List.countP_eq_zero.mpr fun e he hcr => h e he (eq_of_beq hcr)

theorem crs_append (es es' : History) : crs (es ++ es') = crs es + crs es' := List.countP_append

theorem busySeen_append {es es' : History} : BusySeen (es ++ es') ↔ BusySeen es ∨ BusySeen es' :=
  List.mem_append

/-! ### The wait -/

section Wait

variable {deadline : Int} {pollMs polls windowMs : Nat} {es : History} {r : Option Bool}

theorem waitLoop_cases (h : (waitLoop deadline pollMs (polls + 1)).Returns es r) :
    ∃ (status : Option String) (es' : History), es = ⟨.readStatus, status⟩ :: es' ∧
      (status = some busy ∧ es' = [] ∧ r = some true ∨
        status ≠ some busy ∧ ∃ (now : Int) (es'' : History), es' = ⟨.nowMs, now⟩ :: es'' ∧
          (deadline ≤ now ∧ es'' = [] ∧ r = some false ∨
            now < deadline ∧ ∃ (now' : Int) (rest : History),
              es'' = ⟨.nowMs, now'⟩ ::
                ⟨.sleep (min pollMs (max (deadline - now') 0).toNat), ()⟩ :: rest ∧
              (waitLoop deadline pollMs polls).Returns rest r)) := by
  obtain ⟨status, es', rfl, hround⟩ := Dialog.returns_query_bind.mp h
  refine ⟨status, es', rfl, ?_⟩
  by_cases hbusy : status = some busy
  · rw [if_pos hbusy] at hround
    obtain ⟨rfl, rfl⟩ := Dialog.returns_pure.mp hround
    exact .inl ⟨hbusy, rfl, rfl⟩
  · rw [if_neg hbusy] at hround
    obtain ⟨now, es'', rfl, hread⟩ := Dialog.returns_query_bind.mp hround
    refine .inr ⟨hbusy, now, es'', rfl, ?_⟩
    by_cases hdeadline : deadline ≤ now
    · rw [if_pos hdeadline] at hread
      obtain ⟨rfl, rfl⟩ := Dialog.returns_pure.mp hread
      exact .inl ⟨hdeadline, rfl, rfl⟩
    · rw [if_neg hdeadline] at hread
      obtain ⟨now', es₁, rfl, hsleep⟩ := Dialog.returns_query_bind.mp hread
      obtain ⟨_, rest, rfl, hrest⟩ := Dialog.returns_query_bind.mp hsleep
      exact .inr ⟨Int.not_le.mp hdeadline, now', rest, rfl, hrest⟩

theorem waitLoop_spec (h : (waitLoop deadline pollMs polls).Returns es r) :
    (∀ e ∈ es, Waits e.question) ∧ (r = some true ↔ BusySeen es) := by
  induction polls generalizing es with
  | zero =>
      obtain ⟨rfl, rfl⟩ := Dialog.returns_pure.mp h
      exact ⟨nofun, nofun, nofun⟩
  | succ polls ih =>
      obtain ⟨status, es', rfl, ⟨rfl, rfl, rfl⟩ | ⟨hbusy, now, es'', rfl, hlast | hnext⟩⟩ :=
        waitLoop_cases h
      · simp [BusySeen, Waits]
      · obtain ⟨-, rfl, rfl⟩ := hlast
        simp [BusySeen, Waits, Ne.symm hbusy]
      · obtain ⟨-, now', rest, rfl, hrest⟩ := hnext
        obtain ⟨hwaits, hseen⟩ := ih hrest
        refine ⟨by simpa [Waits] using hwaits, hseen.trans ?_⟩
        simp [BusySeen, Ne.symm hbusy]

theorem waitLoop_returns (h : (waitLoop deadline pollMs polls).Returns es r)
    (hclock : Advancing pollMs es) {lo : Int} {n : Nat}
    (hlo : ∀ t : Int, (⟨.nowMs, t⟩ : Exchange Query Answer) ∈ es → lo ≤ t)
    (hn : deadline ≤ lo + n) (hpolls : n < polls) : r ≠ none := by
  induction polls generalizing es lo n with
  | zero => omega
  | succ polls ih =>
      obtain ⟨status, es', rfl, ⟨rfl, rfl, rfl⟩ | ⟨hbusy, now, es'', rfl, hlast | hnext⟩⟩ :=
        waitLoop_cases h
      · exact nofun
      · obtain ⟨-, rfl, rfl⟩ := hlast
        exact nofun
      · obtain ⟨hbefore, now', rest, rfl, hrest⟩ := hnext
        have hnow : lo ≤ now := hlo now (by simp)
        have hnow' : lo ≤ now' := hlo now' (by simp)
        have hpos : n ≠ 0 := by omega
        obtain ⟨m, rfl⟩ := Nat.exists_eq_succ_of_ne_zero hpos
        have hslept := hclock.tail.tail
        have hnext : deadline ≤ lo + 1 + (m : Int) := by
          push_cast at hn
          omega
        refine ih hrest hslept.tail.tail (fun t ht => ?_) hnext (by omega)
        -- either the sleep has moved the clock, or the deadline had passed before it
        by_cases hms : 0 < min pollMs (max (deadline - now') 0).toNat ∨ pollMs = 0
        · have hlt := hslept.slept now' t _ hms (((List.singleton_sublist.mpr ht).cons_cons _).cons_cons _)
          omega
        · have hle := hslept.monotone now' t (((List.singleton_sublist.mpr ht).cons _).cons_cons _)
          omega

theorem waitForBusy_spec (h : (waitForBusy polls windowMs pollMs).Returns es r) :
    (∀ e ∈ es, Waits e.question) ∧ (r = some true ↔ BusySeen es) ∧
      (Advancing pollMs es → windowMs < polls → r ≠ none) := by
  obtain ⟨now, es', rfl, hloop⟩ := Dialog.returns_query_bind.mp h
  obtain ⟨hwaits, hseen⟩ := waitLoop_spec hloop
  refine ⟨by simpa [Waits] using hwaits, hseen.trans (by simp [BusySeen]), fun hclock hpolls => ?_⟩
  refine waitLoop_returns hloop hclock.tail (fun t ht => ?_) (Int.le_refl _) hpolls
  exact hclock.monotone now t ((List.singleton_sublist.mpr ht).cons_cons _)

end Wait

/-! ### The remediation -/

/-- The status that was read last is not busy, and the composer that was read last, where it is
looked at, holds the message. -/
structure Guarded (composer : Composer) (es : History) : Prop where
  status : ∃ status : Option String, Dialog.Latest es .readStatus status ∧ status ≠ some busy
  held : ∀ message region, composer = some (message, region) →
    ∃ screen : List Char, Dialog.Latest es .readScreen screen ∧
      composerHoldsMessageIn screen message region = true

def Allowed (composer : Composer) (es : History) (q : Query) : Prop :=
  q = .sendCr → Guarded composer es

section Guard

variable {composer : Composer} {polls windowMs pollMs : Nat} {h : History} {α : Type}

theorem ensures_waits {m : SubmitM α} (hm : m.Only Waits) :
    m.Ensures (Allowed composer) h fun _ _ => True := by
  induction m generalizing h with
  | pure a => trivial
  | ask q next ih =>
      refine ⟨fun hq => ?_, fun a => ih a (hm.2 a)⟩
      have hwaits := hm.1
      rw [hq] at hwaits
      exact hwaits.elim

theorem only_waitLoop (deadline : Int) : (waitLoop deadline pollMs polls).Only Waits := by
  induction polls with
  | zero => trivial
  | succ polls ih =>
      refine Dialog.Only.ask trivial fun status => Dialog.Only.ite (fun _ => trivial) fun _ => ?_
      refine Dialog.Only.ask trivial fun now => Dialog.Only.ite (fun _ => trivial) fun _ => ?_
      exact Dialog.Only.ask trivial fun now' => Dialog.Only.ask trivial fun _ => ih

theorem ensures_waitForBusy :
    (waitForBusy polls windowMs pollMs).Ensures (Allowed composer) h fun _ _ => True :=
  ensures_waits (Dialog.Only.ask trivial fun _ => only_waitLoop _)

theorem ensures_remediationCr {status : Option String} (hstatus : Dialog.Latest h .readStatus status)
    (hbusy : status ≠ some busy) :
    (remediationCr composer).Ensures (Allowed composer) h fun _ _ => True := by
  match composer with
  | none => exact ⟨fun _ => ⟨⟨status, hstatus, hbusy⟩, nofun⟩, fun _ => trivial⟩
  | some (message, region) =>
      refine Dialog.Ensures.ask nofun fun screen => ?_
      split
      · rename_i hheld
        refine ⟨fun _ => ⟨⟨status, ?_, hbusy⟩, ?_⟩, fun _ => trivial⟩
        · exact hstatus.since (P := (· = .readScreen)) (Dialog.since_snoc rfl) nofun
        · rintro _ _ ⟨⟩
          exact ⟨screen, Dialog.latest_snoc, hheld⟩
      · trivial

theorem ensures_verify (opts : SubmitOptions) :
    (verifyAcceptedThenCr composer polls opts).Ensures (Allowed composer) h fun _ _ => True := by
  refine ensures_waitForBusy.bind fun settled h' _ _ => ?_
  match settled with
  | none => trivial
  | some true => trivial
  | some false =>
      refine Dialog.Ensures.ask nofun fun status => ?_
      split
      · trivial
      · rename_i hbusy
        refine (ensures_remediationCr Dialog.latest_snoc hbusy).bind fun _ h'' _ _ => ?_
        exact ensures_waitForBusy.bind fun _ _ _ _ => trivial

end Guard

section Verify

variable {composer : Composer} {polls : Nat} {opts : SubmitOptions} {es : History}

theorem remediationCr_spec (h : (remediationCr composer).Returns es ()) :
    crs es ≤ 1 ∧ ∀ e ∈ es, e.question = .readScreen ∨ e.question = .sendCr := by
  match composer with
  | none =>
      obtain rfl := Dialog.returns_query.mp h
      exact ⟨Nat.le_refl 1, by simp⟩
  | some (message, region) =>
      obtain ⟨screen, es', rfl, hcr⟩ := Dialog.returns_query_bind.mp h
      split at hcr
      · obtain rfl := Dialog.returns_query.mp hcr
        exact ⟨Nat.le_refl 1, by simp⟩
      · obtain ⟨rfl, -⟩ := Dialog.returns_pure.mp hcr
        exact ⟨Nat.zero_le 1, by simp⟩

theorem crs_waits {es : History} (h : ∀ e ∈ es, Waits e.question) : crs es = 0 :=
  crs_eq_zero fun e he hcr => by
    have hwaits := h e he
    rw [hcr] at hwaits
    exact hwaits

/-- What a verification did: at most one return, and it accepts what it saw. -/
structure Verified (pollMs settleMs postCrMs polls : Nat) (es : History) (r : Option SubmitOutcome) :
    Prop where
  crs : crs es ≤ 1
  accepted : ∀ outcome, r = some outcome → (outcome.accepted = true ↔ BusySeen es)
  returns : Advancing pollMs es → settleMs < polls → postCrMs < polls → r ≠ none

theorem remediate_returns {r : Option SubmitOutcome} (h : (remediate composer polls opts).Returns es r) :
    Verified opts.pollMs opts.settleMs opts.postCrMs polls es r := by
  obtain ⟨status, es', rfl, hcheck⟩ := Dialog.returns_query_bind.mp h
  by_cases hbusy : status = some busy
  · rw [if_pos hbusy] at hcheck
    obtain ⟨rfl, rfl⟩ := Dialog.returns_pure.mp hcheck
    refine ⟨Nat.zero_le 1, ?_, nofun⟩
    rintro _ ⟨⟩
    simp [BusySeen, hbusy]
  · rw [if_neg hbusy] at hcheck
    obtain ⟨sent, _, es₂, rfl, hcr, hrest⟩ := Dialog.returns_bind.mp hcheck
    obtain ⟨wait, accepted, es₃, rfl, hwait, hlast⟩ := Dialog.returns_bind.mp hrest
    obtain ⟨rfl, rfl⟩ := Dialog.returns_pure.mp hlast
    obtain ⟨hone, hsent⟩ := remediationCr_spec hcr
    obtain ⟨hwaits, hseen, hreturns⟩ := waitForBusy_spec hwait
    rw [List.append_nil]
    constructor
    · change crs ([_] ++ (sent ++ wait)) ≤ 1
      rw [crs_append, crs_append, crs_waits hwaits]
      exact (Nat.zero_add _).trans_le hone
    · intro outcome houtcome
      obtain ⟨b, rfl, rfl⟩ := Option.map_eq_some_iff.mp houtcome
      have hunseen : ¬ BusySeen sent := fun hmem => by simpa using hsent _ hmem
      have hidle : ¬ BusySeen [⟨.readStatus, status⟩] := by simp [BusySeen, Ne.symm hbusy]
      change b = true ↔ BusySeen ([_] ++ (sent ++ wait))
      rw [busySeen_append, busySeen_append, or_iff_right hidle, or_iff_right hunseen, ← hseen,
        Option.some_inj]
    · intro hclock _ hpolls hnone
      refine hreturns (hclock.sublist ?_) hpolls (Option.map_eq_none_iff.mp hnone)
      exact (List.sublist_append_right _ _).trans (List.sublist_cons_self _ _)

theorem verify_returns {r : Option SubmitOutcome}
    (h : (verifyAcceptedThenCr composer polls opts).Returns es r) :
    Verified opts.pollMs opts.settleMs opts.postCrMs polls es r := by
  obtain ⟨wait, settled, es', rfl, hwait, hrest⟩ := Dialog.returns_bind.mp h
  obtain ⟨hwaits, hseen, hreturns⟩ := waitForBusy_spec hwait
  have hcrs : crs wait = 0 := crs_waits hwaits
  match settled with
  | none =>
      obtain ⟨rfl, rfl⟩ := Dialog.returns_pure.mp hrest
      rw [List.append_nil]
      exact ⟨by omega, nofun, fun hclock hsettle _ => absurd rfl (hreturns hclock hsettle)⟩
  | some true =>
      obtain ⟨rfl, rfl⟩ := Dialog.returns_pure.mp hrest
      rw [List.append_nil]
      refine ⟨by omega, ?_, nofun⟩
      rintro _ ⟨⟩
      exact iff_of_true rfl (hseen.mp rfl)
  | some false =>
      have hverified := remediate_returns hrest
      have hunseen : ¬ BusySeen wait := fun hmem => by simpa using hseen.mpr hmem
      constructor
      · rw [crs_append, hcrs]
        exact (Nat.zero_add _).trans_le hverified.crs
      · intro outcome houtcome
        rw [hverified.accepted outcome houtcome, busySeen_append, or_iff_right hunseen]
      · intro hclock
        exact hverified.returns (hclock.sublist (List.sublist_append_right _ _))

end Verify

/-! ### The deliveries -/

/-- A phase that sends returns only where they are guarded, and so many of them at most. -/
structure Remediates (composer : Composer) (bound : Nat) (es : History) : Prop where
  bound : crs es ≤ bound
  guarded : ∀ before after, es = before ++ ⟨.sendCr, ()⟩ :: after → Guarded composer before

theorem guarded_of_ensures {composer : Composer} {es : History} {α : Type} {m : SubmitM α} {r : α}
    (hm : m.Ensures (Allowed composer) [] fun _ _ => True) (h : m.Returns es r)
    (before after : History) (hes : es = before ++ ⟨.sendCr, ()⟩ :: after) :
    Guarded composer before :=
  hm.allowed_of_returns h hes rfl

section Deliver

variable {message : List Char} {perRoundMs timeoutS polls : Nat} {es : History}

theorem typeMessage_spec {chunkOpts : ChunkSendOptions}
    (h : (typeMessage message chunkOpts).Returns es ()) :
    ∀ e ∈ es, e.question ≠ .sendCr ∧ e.question ≠ .readStatus := by
  have hchunks (settleMs : Nat) (chunks : List (List Char)) {es : History}
      (h : (sendChunks settleMs chunks).Returns es ()) :
      ∀ e ∈ es, e.question ≠ .sendCr ∧ e.question ≠ .readStatus := by
    induction chunks generalizing es with
    | nil =>
        obtain ⟨rfl, -⟩ := Dialog.returns_pure.mp h
        exact nofun
    | cons chunk rest ih =>
        obtain ⟨_, es₁, rfl, hsend⟩ := Dialog.returns_query_bind.mp h
        obtain ⟨_, es₂, rfl, hrest⟩ := Dialog.returns_query_bind.mp hsend
        simpa using ih hrest
  obtain ⟨typed, _, es', rfl, htext, hsleep⟩ := Dialog.returns_bind.mp h
  obtain rfl := Dialog.returns_query.mp hsleep
  have htyped : ∀ e ∈ typed, e.question ≠ .sendCr ∧ e.question ≠ .readStatus := by
    unfold sendTextChunked at htext
    split at htext
    · obtain ⟨rfl, -⟩ := Dialog.returns_pure.mp htext
      exact nofun
    · obtain ⟨_, es₁, rfl, hrest⟩ := Dialog.returns_query_bind.mp htext
      simpa using hchunks _ _ hrest
  intro e he
  rcases List.mem_append.mp he with he | he
  · exact htyped e he
  · rw [List.mem_singleton.mp he]
    exact ⟨nofun, nofun⟩

theorem ensures_deliverRounds {h : History} (rounds : Nat) (outcome : SubmitOutcome) :
    (deliverRounds message perRoundMs polls rounds outcome).Ensures
      (Allowed (some (message, .glyphAnchor promptGlyph))) h fun _ _ => True := by
  induction rounds generalizing h outcome with
  | zero =>
      unfold deliverRounds
      split <;> trivial
  | succ rounds ih =>
      unfold deliverRounds
      split
      · trivial
      · refine (ensures_verify _).bind fun next h' _ _ => ?_
        match next with
        | none => trivial
        | some outcome => exact ih outcome

theorem deliverRounds_returns {rounds : Nat} {outcome : SubmitOutcome} {r : Option DeliverOutcome}
    (h : (deliverRounds message perRoundMs polls rounds outcome).Returns es r) :
    crs es ≤ rounds ∧
      (∀ d, r = some d → (d = .accepted ↔ outcome.accepted = true ∨ BusySeen es)) ∧
      (Advancing 250 es → perRoundMs < polls → r ≠ none) := by
  induction rounds generalizing es outcome with
  | zero =>
      unfold deliverRounds at h
      cases haccepted : outcome.accepted <;> rw [haccepted] at h <;>
        obtain ⟨rfl, rfl⟩ := Dialog.returns_pure.mp h
      · exact ⟨Nat.le_refl 0, by rintro _ ⟨⟩; simp [BusySeen], nofun⟩
      · exact ⟨Nat.le_refl 0, by rintro _ ⟨⟩; simp, nofun⟩
  | succ rounds ih =>
      unfold deliverRounds at h
      cases haccepted : outcome.accepted with
      | true =>
          rw [haccepted] at h
          obtain ⟨rfl, rfl⟩ := Dialog.returns_pure.mp h
          exact ⟨Nat.zero_le _, by rintro _ ⟨⟩; simp, nofun⟩
      | false =>
          rw [haccepted] at h
          obtain ⟨verify, next, es', rfl, hverify, hrest⟩ := Dialog.returns_bind.mp h
          obtain ⟨hone, hseen, hreturns⟩ := verify_returns hverify
          have hsettled (hclock : Advancing 250 (verify ++ es')) (hpolls : perRoundMs < polls) :
              next ≠ none :=
            hreturns (hclock.sublist (List.sublist_append_left _ _)) (Nat.zero_lt_of_lt hpolls) hpolls
          match next with
          | none =>
              obtain ⟨rfl, rfl⟩ := Dialog.returns_pure.mp hrest
              rw [List.append_nil] at hsettled ⊢
              exact ⟨by omega, nofun, fun hclock hpolls => absurd rfl (hsettled hclock hpolls)⟩
          | some outcome =>
              obtain ⟨hcrs, haccepts, hends⟩ := ih hrest
              refine ⟨?_, fun d hd => ?_, fun hclock hpolls => ?_⟩
              · rw [crs_append]
                omega
              · rw [haccepts d hd, hseen outcome rfl, busySeen_append]
                simp
              · exact hends (hclock.sublist (List.sublist_append_right _ _)) hpolls

theorem ensures_verifyRounds {h : History} :
    (verifyRounds message timeoutS polls).Ensures
      (Allowed (some (message, .glyphAnchor promptGlyph))) h fun _ _ => True := by
  refine (ensures_verify _).bind fun first h' _ _ => ?_
  match first with
  | none => trivial
  | some outcome => exact ensures_deliverRounds maxRounds outcome

theorem verifyRounds_returns {r : Option DeliverOutcome}
    (h : (verifyRounds message timeoutS polls).Returns es r) :
    crs es ≤ maxRounds + 1 ∧ (∀ d, r = some d → (d = .accepted ↔ BusySeen es)) ∧
      (Advancing 250 es → perRound timeoutS < polls → r ≠ none) := by
  obtain ⟨verify, first, es', rfl, hverify, hrest⟩ := Dialog.returns_bind.mp h
  obtain ⟨hone, hseen, hreturns⟩ := verify_returns hverify
  have hround : 2500 < perRound timeoutS := Nat.lt_of_lt_of_le (by decide) (Nat.le_max_right _ 8000)
  have hsettled (hclock : Advancing 250 (verify ++ es')) (hpolls : perRound timeoutS < polls) :
      first ≠ none :=
    hreturns (hclock.sublist (List.sublist_append_left _ _)) (hround.trans hpolls) hpolls
  match first with
  | none =>
      obtain ⟨rfl, rfl⟩ := Dialog.returns_pure.mp hrest
      rw [List.append_nil] at hsettled ⊢
      exact ⟨by omega, nofun, fun hclock hpolls => absurd rfl (hsettled hclock hpolls)⟩
  | some outcome =>
      obtain ⟨hcrs, haccepts, hends⟩ := deliverRounds_returns hrest
      refine ⟨?_, fun d hd => ?_, fun hclock hpolls => ?_⟩
      · rw [crs_append]
        omega
      · rw [haccepts d hd, hseen outcome rfl, busySeen_append]
      · exact hends (hclock.sublist (List.sublist_append_right _ _)) hpolls

theorem ensures_verifyPrompt {h : History} :
    (verifyPrompt message timeoutS polls).Ensures
      (Allowed (some (message, .glyphAnchor promptGlyph))) h fun _ _ => True := by
  refine Dialog.Ensures.ask nofun fun pidFile => ?_
  match pidFile with
  | none => trivial
  | some path => exact ensures_verifyRounds

theorem verifyPrompt_returns {r : Option DeliverOutcome}
    (h : (verifyPrompt message timeoutS polls).Returns es r) :
    crs es ≤ maxRounds + 1 ∧ (∀ d, r = some d → (d = .accepted ↔ BusySeen es)) ∧
      (Advancing 250 es → perRound timeoutS < polls → r ≠ none) := by
  obtain ⟨pidFile, es', rfl, hfound⟩ := Dialog.returns_query_bind.mp h
  match pidFile with
  | none =>
      obtain ⟨rfl, rfl⟩ := Dialog.returns_pure.mp hfound
      exact ⟨Nat.zero_le _, by rintro _ ⟨⟩; simp [BusySeen], nofun⟩
  | some path =>
      obtain ⟨hcrs, haccepts, hends⟩ := verifyRounds_returns hfound
      refine ⟨hcrs, fun d hd => ?_, fun hclock => hends hclock.tail⟩
      rw [haccepts d hd]
      simp [BusySeen]

/-- Text was sent, then the return that submits it, and the rest is what follows. -/
def Submitted (es after : History) : Prop :=
  ∃ typed, es = typed ++ ⟨.sendCr, ()⟩ :: after ∧
    ∀ e ∈ typed, e.question ≠ .sendCr ∧ e.question ≠ .readStatus

theorem typeMessage_submitted {α : Type} {chunkOpts : ChunkSendOptions} {rest : SubmitM α} {r : α}
    (h : (do typeMessage message chunkOpts; let _ ← ask .sendCr; rest : SubmitM α).Returns es r) :
    ∃ after, Submitted es after ∧ rest.Returns after r := by
  obtain ⟨typed, _, es', rfl, htype, hsubmit⟩ := Dialog.returns_bind.mp h
  obtain ⟨_, after, rfl, hrest⟩ := Dialog.returns_query_bind.mp hsubmit
  exact ⟨after, ⟨typed, rfl, typeMessage_spec htype⟩, hrest⟩

theorem verify_remediates {composer : Composer} {opts : SubmitOptions} {r : Option SubmitOutcome}
    (h : (verifyAcceptedThenCr composer polls opts).Returns es r) : Remediates composer 1 es :=
  ⟨(verify_returns h).crs, guarded_of_ensures (ensures_verify opts) h⟩

end Deliver

/-- **The submissions are bounded**, in every run of them, whatever is read. A verification sends one
return at most and the rounds of a prompt four, none of them to a session that was read as busy or to
a composer that does not hold the message; accepted is what was read as busy behind the submission;
and with a clock that sleeps move they end within their windows. -/
theorem submission_bounded :
    (∀ (composer : Composer) (polls : Nat) (opts : SubmitOptions) (es : History)
        (r : Option SubmitOutcome), (verifyAcceptedThenCr composer polls opts).Returns es r →
      Remediates composer 1 es ∧
        (∀ outcome, r = some outcome → (outcome.accepted = true ↔ BusySeen es)) ∧
        (Advancing opts.pollMs es → opts.settleMs < polls → opts.postCrMs < polls → r ≠ none)) ∧
      (∀ (message : List Char) (opts : SubmitOptions) (chunkOpts : ChunkSendOptions)
          (region : ComposerRegion) (polls : Nat) (es : History) (r : Option SubmitOutcome),
        (deliverIdleTwoWriteWithRegion message opts chunkOpts region polls).Returns es r →
        ∃ after, Submitted es after ∧ Remediates (some (message, region)) 1 after ∧
          (∀ outcome, r = some outcome → (outcome.accepted = true ↔ BusySeen after)) ∧
          (Advancing opts.pollMs after → opts.settleMs < polls → opts.postCrMs < polls →
            r ≠ none)) ∧
      ∀ (message : List Char) (timeoutS polls : Nat) (es : History) (r : Option DeliverOutcome),
        (deliverPrompt message timeoutS polls).Returns es r →
        ∃ after, Submitted es after ∧
          Remediates (some (message, .glyphAnchor promptGlyph)) (maxRounds + 1) after ∧
          (∀ d, r = some d → (d = .accepted ↔ BusySeen after)) ∧
          (Advancing 250 after → perRound timeoutS < polls → r ≠ none) := by
  refine ⟨fun composer polls opts es r h => ?_, fun message opts chunkOpts region polls es r h => ?_,
    fun message timeoutS polls es r h => ?_⟩
  · have hverified := verify_returns h
    exact ⟨verify_remediates h, hverified.accepted, hverified.returns⟩
  · obtain ⟨after, hsubmitted, hverify⟩ := typeMessage_submitted h
    have hverified := verify_returns hverify
    exact ⟨after, hsubmitted, verify_remediates hverify, hverified.accepted, hverified.returns⟩
  · obtain ⟨after, hsubmitted, hrest⟩ := typeMessage_submitted h
    obtain ⟨hcrs, haccepts, hends⟩ := verifyPrompt_returns hrest
    exact ⟨after, hsubmitted, ⟨hcrs, guarded_of_ensures ensures_verifyPrompt hrest⟩, haccepts, hends⟩

end QuorumDispatch.Submit
