import QuorumDispatch.Attended.HumanInput
import QuorumDispatch.Attended.Mux

/-!
The effects of one call of the fire sequence, in order, and what a restart makes
of a call that was cut anywhere.

The start is recorded durably ahead of everything that touches the composer. So
whatever a crash leaves behind, a record without the start is of a send whose
composer was not touched, and one with it is settled by the transcript alone.
-/

namespace QuorumDispatch.Attended

open Lib DeliveryEvents

/-! ### One call -/

/-- A call of `fire` for a record begins, in any state of the session. -/
def State.calling (s : State) (rec : PendingRecord) : State :=
  { s with pc := .gate, record := rec, trace := [], outcomes := [] }

/-- A step of either thread as long as the call has not returned; after that only the
human goes on. -/
def callStep (cfg : FireConfig) (s : State) : Event → State
  | .human bytes nowMs sent => humanInput cfg s bytes nowMs sent
  | .fire a => if s.outcomes.isEmpty then fireStep cfg s a else s

def callAfter (cfg : FireConfig) (s : State) (rec : PendingRecord) (run : List Event) : State :=
  run.foldl (callStep cfg) (s.calling rec)

theorem callAfter_snoc (cfg : FireConfig) (s : State) (rec : PendingRecord) (run : List Event)
    (e : Event) : callAfter cfg s rec (run ++ [e]) = callStep cfg (callAfter cfg s rec run) e := by
  simp [callAfter]

def Effect.isPassthrough : Effect → Bool
  | passthrough _ => true
  | _ => false

/-- The effect writes to the composer for the send: a clear chord, message text, or the
carriage return. -/
def Effect.touches : Effect → Bool
  | chord _ | text _ | cr => true
  | _ => false

def Effect.isReplay : Effect → Bool
  | replay _ => true
  | _ => false

def Effect.isFlush : Effect → Bool
  | flush _ => true
  | _ => false

def State.fireTrace (s : State) : List Effect := s.trace.filter (!·.isPassthrough)

def startRecord (rec : PendingRecord) (draft : Bytes) : PendingRecord :=
  { rec with phase := .fireStarted, fireStarted := true, draft }

/-- The record that is in the spool once these effects have happened. -/
def durableRecord (rec : PendingRecord) (t : List Effect) : PendingRecord :=
  t.foldl (fun last e => match e with | .spool r => r | _ => last) rec

@[simp] theorem durableRecord_snoc (rec : PendingRecord) (t : List Effect) (e : Effect) :
    durableRecord rec (t ++ [e]) = match e with | .spool r => r | _ => durableRecord rec t := by
  simp [durableRecord]

/-- The outcome of the acceptance gate, the one return ahead of the lock. -/
def unconfirmable (rec : PendingRecord) : FireOutcome :=
  .terminal (.sendFailed (some rec.sendId) rec.contentSha256 "acceptance-unconfirmable")

/-- What was put back, if anything: the draft, of which the terminal took some bytes. -/
def shown (make : Bytes → Effect) (b : Bytes) (sent : Nat) : List Effect :=
  if b.isEmpty then [] else [make (b.take sent)]

/-! ### What is claimed of a call -/

/-- What holds in every state of the call, and so at every crash. -/
structure FireSafe (rec : PendingRecord) (s : State) : Prop where
  /-- Nothing touches the composer ahead of the durable start. -/
  startedFirst : EachAfter (fun past e => e.touches = true →
    .spool (startRecord rec s.snapshot) ∈ past) s.fireTrace
  /-- Every return but that of the gate has released the lock. -/
  released : s.outcomes ≠ [] → s.outcomes ≠ [unconfirmable rec] → s.lock.locked = false
  /-- A return has put the draft back once if the composer was cleared, else never. -/
  replayed : s.outcomes ≠ [] → ∃ sent, s.fireTrace.filter Effect.isReplay =
    if s.fireTrace.any Effect.isChord then shown .replay s.snapshot sent else []
  /-- A restart makes a success of it only if the message landed. -/
  seenOnLanding : ∀ landing alive already id sha,
    verdictPayload (reconcile (durableRecord rec s.fireTrace).phase landing alive already)
      (durableRecord rec s.fireTrace) = some (.messageSeen id sha) → landing = .landed
  /-- A restart does not take a touched composer for an untouched one. -/
  notUntouched : s.fireTrace.any Effect.touches = true → ∀ landing alive already,
    reconcile (durableRecord rec s.fireTrace).phase landing alive already ≠
        .seenFailedRecipientGone ∧
      reconcile (durableRecord rec s.fireTrace).phase landing alive already ≠ .resurfaceDraft

/-- What holds of a call of `fire` for a record, from any state of the session and
with any answers of the effects. -/
structure FireTraceSafe (cfg : FireConfig) (s : State) (rec : PendingRecord)
    (run : List Event) : Prop where
  always : FireSafe rec (callAfter cfg s rec run)
  /-- When the start cannot be recorded, the composer is never touched. -/
  unrecorded : ∀ pre post a draft, run = pre ++ Event.fire a :: post →
    (callAfter cfg s rec pre).pc = .start draft → a.durable = false →
    (callAfter cfg s rec run).fireTrace.any Effect.touches = false
  /-- Every return but that of the gate is behind the release of the lock, and what the lock
  had buffered then has been written once. -/
  flushed : (callAfter cfg s rec run).outcomes ≠ [] →
    (callAfter cfg s rec run).outcomes ≠ [unconfirmable rec] →
    ∃ pre post a next, run = pre ++ Event.fire a :: post ∧
      (callAfter cfg s rec pre).pc = .unlock next ∧
      ∃ sent, (callAfter cfg s rec run).fireTrace.filter Effect.isFlush =
        shown .flush (callAfter cfg s rec pre).lock.buffer sent
  /-- The message counts as seen only when the probe found it. -/
  seen : ∀ id sha, .terminal (.messageSeen id sha) ∈ (callAfter cfg s rec run).outcomes →
    id = rec.sendId ∧ sha = rec.contentSha256 ∧ ∃ pre post a, run = pre ++ Event.fire a :: post ∧
      (callAfter cfg s rec pre).pc = .landing ∧ a.scan = .landed

/-! ### The invariant -/

structure Begun (rec : PendingRecord) (s : State) : Prop where
  started : .spool (startRecord rec s.snapshot) ∈ s.fireTrace
  durable : (durableRecord rec s.fireTrace).phase = .fireStarted ∨
    (durableRecord rec s.fireTrace).phase = .fireCompleted

structure Restored (rec : PendingRecord) (s : State) : Prop where
  replayed : ∃ sent, s.fireTrace.filter Effect.isReplay =
    if s.fireTrace.any Effect.isChord then shown .replay s.snapshot sent else []
  begun : s.fireTrace.any Effect.touches = true → Begun rec s

structure AtWork (rec : PendingRecord) (s : State) (draft : Bytes) : Prop where
  running : s.outcomes = []
  draft : draft = s.snapshot
  begun : Begun rec s
  unreplayed : s.fireTrace.filter Effect.isReplay = []
  unflushed : s.fireTrace.filter Effect.isFlush = []

def Standing (rec : PendingRecord) (s : State) : Prop :=
  match s.pc with
  | .gate | .lock => s.outcomes = [] ∧ s.fireTrace = [] ∧ s.record = rec
  | .verify draft _ | .start draft =>
      s.outcomes = [] ∧ s.fireTrace = [] ∧ s.record = rec ∧ draft = s.snapshot
  | .clear draft _ => AtWork rec s draft
  | .reverify draft | .inject draft | .complete draft =>
      AtWork rec s draft ∧ s.fireTrace.any Effect.isChord = true
  | .replay draft cleared _ =>
      (s.outcomes = [] ∧ draft = s.snapshot ∧ cleared = false ∧ s.fireTrace = []) ∨
        (AtWork rec s draft ∧ cleared = true ∧ s.fireTrace.any Effect.isChord = true)
  | .unlock _ => s.outcomes = [] ∧ Restored rec s ∧ s.fireTrace.filter Effect.isFlush = []
  | .flush _ _ => s.outcomes = [] ∧ Restored rec s ∧ s.lock.locked = false ∧
      s.fireTrace.filter Effect.isFlush = []
  | .landing => s.outcomes = [] ∧ Restored rec s ∧ s.lock.locked = false
  | .idle => s.outcomes ≠ [] ∧ Restored rec s ∧
      (s.outcomes = [unconfirmable rec] ∨ s.lock.locked = false)

structure CallBase (rec : PendingRecord) (s : State) : Prop where
  ordered : EachAfter (fun past e => e.touches = true →
    .spool (startRecord rec s.snapshot) ∈ past) s.fireTrace
  sendId : s.record.sendId = rec.sendId
  contentSha256 : s.record.contentSha256 = rec.contentSha256

structure CallInv (rec : PendingRecord) (s : State) : Prop extends CallBase rec s where
  standing : Standing rec s

@[simp] theorem fireTrace_emit (s : State) (e : Effect) :
    (s.emit e).fireTrace = s.fireTrace ++ if e.isPassthrough then [] else [e] := by
  cases h : e.isPassthrough <;> simp [State.fireTrace, State.emit, h]

@[simp] theorem fireTrace_goto (s : State) (pc : Pc) : (s.goto pc).fireTrace = s.fireTrace := rfl

@[simp] theorem fireTrace_finish (s : State) (o : FireOutcome) :
    (s.finish o).fireTrace = s.fireTrace := rfl

@[simp] theorem fireTrace_spoolWrite (s : State) (rec : PendingRecord) (durable : Bool) :
    (s.spoolWrite rec durable).fireTrace =
      s.fireTrace ++ if durable then [.spool rec] else [] := by
  cases durable <;> simp [State.fireTrace, State.spoolWrite, Effect.isPassthrough]

theorem humanInput_frame (cfg : FireConfig) (s : State) (bytes : Bytes) (nowMs : Int)
    (sent : Nat) :
    let s' := humanInput cfg s bytes nowMs sent
    s'.fireTrace = s.fireTrace ∧ s'.pc = s.pc ∧ s'.record = s.record ∧
      s'.outcomes = s.outcomes ∧ s'.snapshot = s.snapshot ∧ s'.lock.locked = s.lock.locked := by
  unfold humanInput InputLock.admit
  cases hlocked : s.lock.locked with
  | true => simp [State.fireTrace, hlocked]
  | false => simp [State.fireTrace, State.emit, Effect.isPassthrough, hlocked]

theorem CallInv.human {cfg : FireConfig} {rec : PendingRecord} {s : State}
    (h : CallInv rec s) (bytes : Bytes) (nowMs : Int) (sent : Nat) :
    CallInv rec (humanInput cfg s bytes nowMs sent) := by
  obtain ⟨htrace, hpc, hrec, hout, hsnap, hlock⟩ := humanInput_frame cfg s bytes nowMs sent
  have hbegun : Begun rec s → Begun rec (humanInput cfg s bytes nowMs sent) := fun hb =>
    ⟨by rw [htrace, hsnap]; exact hb.started, by rw [htrace]; exact hb.durable⟩
  have hrestored : Restored rec s → Restored rec (humanInput cfg s bytes nowMs sent) := fun hr =>
    ⟨by rw [htrace, hsnap]; exact hr.replayed, fun ht => hbegun (hr.begun (by rwa [htrace] at ht))⟩
  have hwork : ∀ draft, AtWork rec s draft → AtWork rec (humanInput cfg s bytes nowMs sent) draft :=
    fun draft hw => ⟨by rw [hout]; exact hw.running, by rw [hsnap]; exact hw.draft,
      hbegun hw.begun, by rw [htrace]; exact hw.unreplayed, by rw [htrace]; exact hw.unflushed⟩
  refine ⟨⟨by rw [htrace, hsnap]; exact h.ordered, by rw [hrec]; exact h.sendId,
    by rw [hrec]; exact h.contentSha256⟩, ?_⟩
  have hstage := h.standing
  unfold Standing at hstage ⊢
  rw [hpc]
  cases hpc' : s.pc <;> simp only [hpc', htrace, hrec, hout, hsnap, hlock] at hstage ⊢
  case clear draft left => exact hwork draft hstage
  case reverify draft => exact ⟨hwork draft hstage.1, hstage.2⟩
  case inject draft => exact ⟨hwork draft hstage.1, hstage.2⟩
  case complete draft => exact ⟨hwork draft hstage.1, hstage.2⟩
  case replay draft cleared next =>
    exact hstage.imp_right fun hw => ⟨hwork draft hw.1, hw.2⟩
  case unlock next => exact ⟨hstage.1, hrestored hstage.2.1, hstage.2.2⟩
  case flush buffered next => exact ⟨hstage.1, hrestored hstage.2.1, hstage.2.2⟩
  case landing => exact ⟨hstage.1, hrestored hstage.2.1, hstage.2.2⟩
  case idle => exact ⟨hstage.1, hrestored hstage.2.1, hstage.2.2⟩
  all_goals exact hstage

/-! ### The steps of the call -/

section

variable {cfg : FireConfig} {rec : PendingRecord} {s s' : State} {a : Answer} {draft : Bytes}

theorem Begun.snoc (h : Begun rec s) (hsnap : s'.snapshot = s.snapshot) {e : Effect}
    (htrace : s'.fireTrace = s.fireTrace ++ [e])
    (he : ∀ r, e = .spool r → r.phase = .fireCompleted) : Begun rec s' := by
  refine ⟨by rw [htrace, hsnap]; exact List.mem_append_left _ h.started, ?_⟩
  rw [htrace, durableRecord_snoc]
  cases e with
  | spool r => exact .inr (he r rfl)
  | _ => exact h.durable

theorem AtWork.snoc (h : AtWork rec s draft) (hsnap : s'.snapshot = s.snapshot)
    (hout : s'.outcomes = s.outcomes) {e : Effect} (htrace : s'.fireTrace = s.fireTrace ++ [e])
    (he : ∀ r, e = .spool r → r.phase = .fireCompleted) (hreplay : e.isReplay = false)
    (hflush : e.isFlush = false) : AtWork rec s' draft where
  running := by rw [hout]; exact h.running
  draft := by rw [hsnap]; exact h.draft
  begun := h.begun.snoc hsnap htrace he
  unreplayed := by rw [htrace]; simp [h.unreplayed, hreplay]
  unflushed := by rw [htrace]; simp [h.unflushed, hflush]

theorem AtWork.goto (h : AtWork rec s draft) (pc : Pc) : AtWork rec (s.goto pc) draft :=
  ⟨h.running, h.draft, ⟨h.begun.started, h.begun.durable⟩, h.unreplayed, h.unflushed⟩

theorem Restored.goto (h : Restored rec s) (pc : Pc) : Restored rec (s.goto pc) :=
  ⟨h.replayed, fun ht => ⟨(h.begun ht).started, (h.begun ht).durable⟩⟩

theorem CallBase.snoc (h : CallBase rec s) (hsnap : s'.snapshot = s.snapshot)
    (hid : s'.record.sendId = s.record.sendId)
    (hsha : s'.record.contentSha256 = s.record.contentSha256) {e : Effect}
    (htrace : s'.fireTrace = s.fireTrace ++ [e])
    (he : e.touches = true → .spool (startRecord rec s.snapshot) ∈ s.fireTrace) :
    CallBase rec s' where
  ordered := by
    rw [htrace, hsnap]
    exact eachAfter_snoc.mpr ⟨h.ordered, he⟩
  sendId := hid.trans h.sendId
  contentSha256 := hsha.trans h.contentSha256

theorem CallBase.move (h : CallBase rec s) {pc : Pc} (hstage : Standing rec (s.goto pc)) :
    CallInv rec (s.goto pc) := ⟨⟨h.ordered, h.sendId, h.contentSha256⟩, hstage⟩

theorem CallBase.return_ (h : CallBase rec s) (hrestored : Restored rec s)
    (hlock : s.lock.locked = false) (outcome : FireOutcome) : CallInv rec (s.finish outcome) := by
  refine ⟨⟨h.ordered, h.sendId, h.contentSha256⟩, ?_⟩
  exact ⟨by simp [State.finish], ⟨hrestored.replayed, fun ht =>
    ⟨(hrestored.begun ht).started, (hrestored.begun ht).durable⟩⟩, .inr hlock⟩

theorem Restored.of_nil (h : s.fireTrace = []) : Restored rec s :=
  ⟨⟨0, by simp [h]⟩, by simp [h]⟩

theorem CallInv.gate (h : CallInv rec s) (hpc : s.pc = .gate) : CallInv rec (fireStep cfg s a) := by
  have hstage := h.standing
  simp only [Standing, hpc] at hstage
  obtain ⟨hout, htrace, hrec⟩ := hstage
  unfold fireStep
  rw [hpc]
  dsimp only
  split
  · refine ⟨⟨h.ordered, h.sendId, h.contentSha256⟩, ?_⟩
    refine ⟨by simp [State.finish], .of_nil (by simpa using htrace), .inl ?_⟩
    simp [State.finish, hout, State.sendFailed, unconfirmable, hrec]
  · exact h.move ⟨hout, htrace, hrec⟩

theorem CallInv.start (h : CallInv rec s) (hpc : s.pc = .start draft) :
    CallInv rec (fireStep cfg s a) := by
  have hstage := h.standing
  simp only [Standing, hpc] at hstage
  obtain ⟨hout, htrace, hrec, hdraft⟩ := hstage
  unfold fireStep
  rw [hpc]
  dsimp only
  cases a.durable with
  | false =>
      refine ⟨⟨?_, h.sendId, h.contentSha256⟩, .inl ⟨hout, hdraft, rfl, ?_⟩⟩
      · simp [htrace]
      · simpa using htrace
  | true =>
      have hfire : ((s.spoolWrite { s.record with
          phase := .fireStarted, fireStarted := true, draft := draft } true).goto
            (.clear draft (max cfg.presses 1))).fireTrace = [.spool (startRecord rec s.snapshot)] := by
        simp [htrace, startRecord, hrec, hdraft]
      refine ⟨⟨?_, h.sendId, h.contentSha256⟩, ⟨hout, hdraft, ⟨?_, .inl ?_⟩, ?_, ?_⟩⟩
      · simp only [if_true]
        rw [hfire]
        exact eachAfter_snoc.mpr ⟨eachAfter_nil, by simp [Effect.touches]⟩
      · simp only [if_true]
        rw [hfire]
        exact List.mem_singleton.mpr rfl
      · simp only [if_true]
        rw [hfire]
        rfl
      · simp only [if_true]
        rw [hfire]
        rfl
      · simp only [if_true]
        rw [hfire]
        rfl

theorem CallInv.clear (h : CallInv rec s) {left : Nat} (hpc : s.pc = .clear draft left) :
    CallInv rec (fireStep cfg s a) := by
  have hstage : AtWork rec s draft := by simpa only [Standing, hpc] using h.standing
  have htrace : (s.emit (.chord (cfg.chord.take a.sent))).fireTrace =
      s.fireTrace ++ [Effect.chord (cfg.chord.take a.sent)] := by
    simp [Effect.isPassthrough]
  have hwork : AtWork rec (s.emit (.chord (cfg.chord.take a.sent))) draft :=
    hstage.snoc rfl rfl htrace (by simp) rfl rfl
  have hchord : (s.emit (.chord (cfg.chord.take a.sent))).fireTrace.any Effect.isChord = true := by
    rw [htrace]
    simp [Effect.isChord]
  have hbase : CallBase rec (s.emit (.chord (cfg.chord.take a.sent))) :=
    h.snoc rfl rfl rfl htrace fun _ => hstage.begun.started
  unfold fireStep
  rw [hpc]
  dsimp only
  split
  · exact hbase.move (.inr ⟨hwork.goto _, rfl, hchord⟩)
  · split
    · exact hbase.move (hwork.goto _)
    · split
      · exact hbase.move ⟨hwork.goto _, hchord⟩
      · exact hbase.move ⟨hwork.goto _, hchord⟩

theorem CallInv.injecting (h : CallInv rec s) (hpc : s.pc = .inject draft) {e : Effect}
    (htouch : e.touches = true) : CallInv rec (s.emit e) := by
  have hstage := h.standing
  simp only [Standing, hpc] at hstage
  obtain ⟨hwork, hchord⟩ := hstage
  have htrace : (s.emit e).fireTrace = s.fireTrace ++ [e] := by
    cases e <;> simp_all [Effect.touches, Effect.isPassthrough]
  have hwork' : AtWork rec (s.emit e) draft :=
    hwork.snoc rfl rfl htrace (by rintro r rfl; simp [Effect.touches] at htouch)
      (by cases e <;> simp_all [Effect.touches, Effect.isReplay])
      (by cases e <;> simp_all [Effect.touches, Effect.isFlush])
  refine ⟨h.snoc rfl rfl rfl htrace fun _ => hwork.begun.started, ?_⟩
  have hpc' : (s.emit e).pc = .inject draft := hpc
  simp only [Standing, hpc']
  refine ⟨hwork', ?_⟩
  rw [htrace, List.any_append, hchord, Bool.true_or]

theorem CallInv.inject (h : CallInv rec s) (hpc : s.pc = .inject draft) :
    CallInv rec (fireStep cfg s a) := by
  have hstage := h.standing
  simp only [Standing, hpc] at hstage
  obtain ⟨hwork, hchord⟩ := hstage
  unfold fireStep
  rw [hpc]
  dsimp only
  split
  · exact h.injecting hpc rfl
  · exact h.injecting hpc rfl
  · split
    · exact h.move (.inr ⟨hwork.goto _, rfl, hchord⟩)
    · exact h.move ⟨hwork.goto _, hchord⟩

theorem CallInv.complete (h : CallInv rec s) (hpc : s.pc = .complete draft) :
    CallInv rec (fireStep cfg s a) := by
  have hstage := h.standing
  simp only [Standing, hpc] at hstage
  obtain ⟨hwork, hchord⟩ := hstage
  unfold fireStep
  rw [hpc]
  dsimp only
  generalize hr : ({ s.record with phase := .fireCompleted, fireCompleted := true } :
    PendingRecord) = r
  have hphase : r.phase = .fireCompleted := by rw [← hr]
  have hid : r.sendId = s.record.sendId := by rw [← hr]
  have hsha : r.contentSha256 = s.record.contentSha256 := by rw [← hr]
  cases a.durable with
  | false =>
      have htrace : (s.spoolWrite r false).fireTrace = s.fireTrace := by simp
      have hwork' : AtWork rec (s.spoolWrite r false) draft :=
        ⟨hwork.running, hwork.draft, ⟨htrace ▸ hwork.begun.started, htrace ▸ hwork.begun.durable⟩,
          htrace ▸ hwork.unreplayed, htrace ▸ hwork.unflushed⟩
      have hbase : CallBase rec (s.spoolWrite r false) :=
        ⟨htrace ▸ h.ordered, hid.trans h.sendId, hsha.trans h.contentSha256⟩
      exact hbase.move (.inr ⟨hwork'.goto _, rfl, by simpa using hchord⟩)
  | true =>
      have htrace : (s.spoolWrite r true).fireTrace = s.fireTrace ++ [Effect.spool r] := by simp
      have hwork' : AtWork rec (s.spoolWrite r true) draft :=
        hwork.snoc rfl rfl htrace (by rintro r ⟨⟩; exact hphase) rfl rfl
      have hbase : CallBase rec (s.spoolWrite r true) :=
        h.snoc rfl hid hsha htrace (by simp [Effect.touches])
      refine hbase.move (.inr ⟨hwork'.goto _, rfl, ?_⟩)
      rw [fireTrace_goto, htrace, List.any_append, hchord, Bool.true_or]

theorem CallInv.replay (h : CallInv rec s) {cleared : Bool} {next : Tail}
    (hpc : s.pc = .replay draft cleared next) : CallInv rec (fireStep cfg s a) := by
  have hstage := h.standing
  simp only [Standing, hpc] at hstage
  unfold fireStep
  rw [hpc]
  dsimp only
  obtain ⟨hout, hdraft, rfl, htrace⟩ | ⟨hwork, rfl, hchord⟩ := hstage
  · exact h.move ⟨hout, .of_nil htrace, by simp [htrace]⟩
  · have hsnap : s.snapshot = draft := hwork.draft.symm
    cases hempty : draft.isEmpty with
    | true =>
        have hrestored : Restored rec s := by
          refine ⟨⟨0, ?_⟩, fun _ => hwork.begun⟩
          rw [hwork.unreplayed, hchord, hsnap]
          simp [shown, hempty]
        exact h.move ⟨hwork.running, hrestored.goto _, hwork.unflushed⟩
    | false =>
        have htrace : (s.emit (.replay (draft.take a.sent))).fireTrace =
            s.fireTrace ++ [Effect.replay (draft.take a.sent)] := by simp [Effect.isPassthrough]
        have hbegun : Begun rec (s.emit (.replay (draft.take a.sent))) :=
          hwork.begun.snoc rfl htrace (by simp)
        have hrestored : Restored rec (s.emit (.replay (draft.take a.sent))) := by
          refine ⟨⟨a.sent, ?_⟩, fun _ => hbegun⟩
          have hsnap' : (s.emit (.replay (draft.take a.sent))).snapshot = draft := hsnap
          rw [hsnap', htrace, List.filter_append, hwork.unreplayed, List.any_append, hchord]
          simp [Effect.isReplay, shown, hempty]
        have hbase : CallBase rec (s.emit (.replay (draft.take a.sent))) :=
          h.snoc rfl rfl rfl htrace (by simp [Effect.touches])
        refine hbase.move ⟨hwork.running, hrestored.goto _, ?_⟩
        rw [fireTrace_goto, htrace, List.filter_append, hwork.unflushed]
        rfl

theorem CallBase.afterFlush (h : CallBase rec s) (hout : s.outcomes = [])
    (hrestored : Restored rec s) (hlock : s.lock.locked = false) (next : Tail) :
    CallInv rec (match next with
      | .failed reason => s.finish (s.sendFailed reason)
      | .landing => s.goto .landing) := by
  cases next with
  | failed reason => exact h.return_ hrestored hlock _
  | landing => exact h.move ⟨hout, hrestored.goto _, hlock⟩

theorem CallInv.flush (h : CallInv rec s) {buffered : Bytes} {next : Tail}
    (hpc : s.pc = .flush buffered next) : CallInv rec (fireStep cfg s a) := by
  have hstage := h.standing
  simp only [Standing, hpc] at hstage
  obtain ⟨hout, hrestored, hlock, hunflushed⟩ := hstage
  unfold fireStep
  rw [hpc]
  dsimp only
  cases hempty : buffered.isEmpty with
  | true => exact h.afterFlush hout hrestored hlock next
  | false =>
      have htrace : (s.emit (.flush (buffered.take a.sent))).fireTrace =
          s.fireTrace ++ [Effect.flush (buffered.take a.sent)] := by simp [Effect.isPassthrough]
      have hrestored' : Restored rec (s.emit (.flush (buffered.take a.sent))) := by
        obtain ⟨sent, hsent⟩ := hrestored.replayed
        refine ⟨⟨sent, ?_⟩, fun ht => (hrestored.begun ?_).snoc rfl htrace (by simp)⟩
        · rw [htrace, List.filter_append, List.any_append, hsent]
          simp [Effect.isReplay, Effect.isChord, State.emit]
        · rw [htrace] at ht
          simpa [Effect.touches] using ht
      have hbase : CallBase rec (s.emit (.flush (buffered.take a.sent))) :=
        h.snoc rfl rfl rfl htrace (by simp [Effect.touches])
      exact hbase.afterFlush hout hrestored' hlock next

theorem CallInv.landing (h : CallInv rec s) (hpc : s.pc = .landing) :
    CallInv rec (fireStep cfg s a) := by
  have hstage := h.standing
  simp only [Standing, hpc] at hstage
  obtain ⟨-, hrestored, hlock⟩ := hstage
  unfold fireStep
  rw [hpc]
  dsimp only [landingStep]
  split
  · exact h.return_ hrestored hlock _
  · exact h.return_ hrestored hlock _
  · split
    · exact h.return_ hrestored hlock _
    · split
      · exact h.return_ hrestored hlock _
      · exact h

theorem CallInv.fire (h : CallInv rec s) (hrun : s.outcomes = []) :
    CallInv rec (fireStep cfg s a) := by
  have hstage := h.standing
  cases hpc : s.pc with
  | idle =>
      simp only [Standing, hpc] at hstage
      exact absurd hrun hstage.1
  | gate => exact h.gate hpc
  | lock =>
      simp only [Standing, hpc] at hstage
      obtain ⟨hout, htrace, hrec⟩ := hstage
      have hstep : fireStep cfg s a = { s with
          lock := s.lock.lock
          pc := .verify s.journal.draft 0
          traceMark := s.trace.length
          typedMark := s.typed.length
          snapshot := s.journal.draft } := by
        simp only [fireStep, hpc]
      have htrace' : (fireStep cfg s a).fireTrace = [] := by
        rw [hstep]
        exact htrace
      refine ⟨⟨?_, ?_, ?_⟩, ?_⟩
      · rw [htrace']
        exact eachAfter_nil
      · rw [hstep]
        exact h.sendId
      · rw [hstep]
        exact h.contentSha256
      · rw [hstep]
        exact ⟨hout, htrace, hrec, rfl⟩
  | verify draft attempt =>
      simp only [Standing, hpc] at hstage
      obtain ⟨hout, htrace, hrec, hdraft⟩ := hstage
      unfold fireStep
      rw [hpc]
      dsimp only
      split
      · exact h.move ⟨hout, htrace, hrec, hdraft⟩
      · split
        · exact h.move ⟨hout, htrace, hrec, hdraft⟩
        · exact h.move (.inl ⟨hout, hdraft, rfl, htrace⟩)
  | start draft => exact h.start hpc
  | clear draft left => exact h.clear hpc
  | reverify draft =>
      simp only [Standing, hpc] at hstage
      unfold fireStep
      rw [hpc]
      dsimp only
      split
      · exact h.move ⟨hstage.1.goto _, hstage.2⟩
      · exact h.move (.inr ⟨hstage.1.goto _, rfl, hstage.2⟩)
  | inject draft => exact h.inject hpc
  | complete draft => exact h.complete hpc
  | replay draft cleared next => exact h.replay hpc
  | unlock next =>
      simp only [Standing, hpc] at hstage
      obtain ⟨hout, hrestored, hunflushed⟩ := hstage
      unfold fireStep
      rw [hpc]
      exact ⟨⟨h.ordered, h.sendId, h.contentSha256⟩, hout,
        ⟨hrestored.replayed, fun ht => ⟨(hrestored.begun ht).started, (hrestored.begun ht).durable⟩⟩,
        rfl, hunflushed⟩
  | flush buffered next => exact h.flush hpc
  | landing => exact h.landing hpc

theorem CallInv.step (h : CallInv rec s) (e : Event) : CallInv rec (callStep cfg s e) := by
  cases e with
  | human bytes nowMs sent => exact h.human bytes nowMs sent
  | fire a =>
      simp only [callStep]
      split
      case isTrue hrun => exact h.fire (List.isEmpty_iff.mp hrun)
      case isFalse => exact h

end

theorem callInv_callAfter (cfg : FireConfig) (s : State) (rec : PendingRecord)
    (run : List Event) : CallInv rec (callAfter cfg s rec run) := by
  induction run using List.reverseRecOn with
  | nil => exact ⟨⟨eachAfter_nil, rfl, rfl⟩, rfl, rfl, rfl⟩
  | append_singleton run e ih =>
      rw [callAfter_snoc]
      exact ih.step e

/-! ### What follows in every state -/

theorem landed_of_verdict {r : PendingRecord} {landing : LandingResult} {alive already : Bool}
    {id sha : String}
    (h : verdictPayload (reconcile r.phase landing alive already) r = some (.messageSeen id sha)) :
    landing = .landed := by
  cases landing with
  | landed => rfl
  | _ =>
      revert h
      cases r.phase <;> cases alive <;> cases already <;> simp [reconcile, verdictPayload]

theorem CallInv.begun {rec : PendingRecord} {s : State} (h : CallInv rec s)
    (ht : s.fireTrace.any Effect.touches = true) : Begun rec s := by
  have hstage := h.standing
  have hnil : s.fireTrace ≠ [] := by
    intro hnil
    simp [hnil] at ht
  cases hpc : s.pc <;> simp only [Standing, hpc] at hstage
  case clear => exact hstage.begun
  case reverify => exact hstage.1.begun
  case inject => exact hstage.1.begun
  case complete => exact hstage.1.begun
  case replay =>
    obtain ⟨-, -, -, htrace⟩ | hwork := hstage
    · exact absurd htrace hnil
    · exact hwork.1.begun
  case unlock => exact hstage.2.1.begun ht
  case flush => exact hstage.2.1.begun ht
  case landing => exact hstage.2.1.begun ht
  case idle => exact hstage.2.1.begun ht
  all_goals exact absurd hstage.2.1 hnil

theorem CallInv.returned {rec : PendingRecord} {s : State} (h : CallInv rec s)
    (hout : s.outcomes ≠ []) :
    Restored rec s ∧ (s.outcomes = [unconfirmable rec] ∨ s.lock.locked = false) := by
  have hstage := h.standing
  cases hpc : s.pc <;> simp only [Standing, hpc] at hstage
  case idle => exact hstage.2
  case replay => exact absurd (hstage.elim (·.1) (·.1.running)) hout
  case clear => exact absurd hstage.running hout
  case reverify => exact absurd hstage.1.running hout
  case inject => exact absurd hstage.1.running hout
  case complete => exact absurd hstage.1.running hout
  all_goals exact absurd hstage.1 hout

theorem CallInv.safe {rec : PendingRecord} {s : State} (h : CallInv rec s) : FireSafe rec s where
  startedFirst := h.ordered
  released := fun hout hgate => (h.returned hout).2.resolve_left hgate
  replayed := fun hout => (h.returned hout).1.replayed
  seenOnLanding := fun _ _ _ _ _ => landed_of_verdict
  notUntouched := by
    intro ht landing alive already
    obtain hphase | hphase := (h.begun ht).durable <;> rw [hphase] <;>
      cases landing <;> cases alive <;> cases already <;> simp [reconcile]

/-! ### What follows along a run -/

theorem callAfter_append (cfg : FireConfig) (s : State) (rec : PendingRecord)
    (pre post : List Event) (e : Event) :
    callAfter cfg s rec (pre ++ e :: post) =
      post.foldl (callStep cfg) (callStep cfg (callAfter cfg s rec pre) e) := by
  simp [callAfter]

/-- The call leaves with a failure, and the composer was not touched. -/
structure LeavingUntouched (s : State) : Prop where
  untouched : s.fireTrace.any Effect.touches = false
  leaving : (∃ draft reason, s.pc = .replay draft false (.failed reason)) ∨
    (∃ reason, s.pc = .unlock (.failed reason)) ∨
    (∃ b reason, s.pc = .flush b (.failed reason)) ∨ s.outcomes ≠ []

theorem LeavingUntouched.step {s : State} (h : LeavingUntouched s) (cfg : FireConfig)
    (e : Event) : LeavingUntouched (callStep cfg s e) := by
  cases e with
  | human bytes nowMs sent =>
      obtain ⟨htrace, hpc, -, hout, -, -⟩ := humanInput_frame cfg s bytes nowMs sent
      refine ⟨?_, ?_⟩
      · simp only [callStep, htrace]
        exact h.untouched
      · simp only [callStep, hpc, hout]
        exact h.leaving
  | fire a =>
      simp only [callStep]
      split
      case isFalse => exact h
      case isTrue hrun =>
        obtain ⟨draft, reason, hpc⟩ | ⟨reason, hpc⟩ | ⟨b, reason, hpc⟩ | hout := h.leaving
        · refine ⟨?_, .inr (.inl ⟨reason, ?_⟩)⟩
          · simpa [fireStep, hpc] using h.untouched
          · simp [fireStep, hpc, State.goto]
        · refine ⟨?_, .inr (.inr (.inl ⟨s.lock.buffer, reason, ?_⟩))⟩
          · simpa [fireStep, hpc, State.fireTrace] using h.untouched
          · simp [fireStep, hpc, InputLock.unlockAndDrain]
        · refine ⟨?_, .inr (.inr (.inr ?_))⟩
          · have := h.untouched
            cases hempty : b.isEmpty <;>
              simp_all [fireStep, Effect.isPassthrough, Effect.touches]
          · simp [fireStep, hpc, State.finish]
        · exact absurd (List.isEmpty_iff.mp hrun) hout

def Draining (b : Bytes) (s : State) : Prop :=
  ((∃ next, s.pc = .flush b next) ∧ s.fireTrace.filter Effect.isFlush = [] ∧ s.outcomes = []) ∨
    (s.pc = .landing ∨ s.outcomes ≠ []) ∧
      ∃ sent, s.fireTrace.filter Effect.isFlush = shown .flush b sent

theorem fireTrace_flush {cfg : FireConfig} {s : State} {a : Answer} {b : Bytes} {next : Tail}
    (hpc : s.pc = .flush b next) :
    (fireStep cfg s a).fireTrace = s.fireTrace ++ shown .flush b a.sent := by
  cases hempty : b.isEmpty <;> cases next <;>
    simp [fireStep, hpc, hempty, shown, Effect.isPassthrough]

theorem Draining.step {b : Bytes} {s : State} (h : Draining b s) (cfg : FireConfig) (e : Event) :
    Draining b (callStep cfg s e) := by
  cases e with
  | human bytes nowMs sent =>
      obtain ⟨htrace, hpc, -, hout, -, -⟩ := humanInput_frame cfg s bytes nowMs sent
      simp only [Draining, callStep, htrace, hpc, hout]
      exact h
  | fire a =>
      simp only [callStep]
      split
      case isFalse => exact h
      case isTrue hrun =>
        obtain ⟨⟨next, hpc⟩, hflush, -⟩ | ⟨hpc | hout, hflush⟩ := h
        · -- the write of the buffer, after which the call returns or looks for the landing
          have hplace : (fireStep cfg s a).pc = .landing ∨ (fireStep cfg s a).outcomes ≠ [] := by
            cases next <;> simp [fireStep, hpc, State.goto, State.finish]
          refine .inr ⟨hplace, a.sent, ?_⟩
          rw [fireTrace_flush hpc, List.filter_append, hflush]
          cases hempty : b.isEmpty <;> simp [shown, hempty, Effect.isFlush]
        · obtain ⟨sent, hsent⟩ := hflush
          refine .inr ⟨?_, sent, ?_⟩
          · cases hscan : a.scan <;> simp only [fireStep, hpc, landingStep, hscan]
            case unconfirmed => split <;> [skip; split] <;> simp [State.finish, hpc]
            all_goals simp [State.finish]
          · rw [← hsent]
            cases hscan : a.scan <;> simp only [fireStep, hpc, landingStep, hscan]
            case unconfirmed => split <;> [skip; split] <;> simp
            all_goals simp
        · exact absurd (List.isEmpty_iff.mp hrun) hout

def Behind (rec : PendingRecord) (s : State) : Prop :=
  (∃ b next, s.pc = .flush b next) ∨ s.pc = .landing ∨
    s.outcomes ≠ [] ∧ s.outcomes ≠ [unconfirmable rec]

theorem Behind.of_callStep {cfg : FireConfig} {rec : PendingRecord} {s : State} {e : Event}
    (hinv : CallInv rec s) (h : Behind rec (callStep cfg s e)) :
    Behind rec s ∨ ∃ a next, e = .fire a ∧ s.pc = .unlock next := by
  cases e with
  | human bytes nowMs sent =>
      obtain ⟨-, hpc, -, hout, -, -⟩ := humanInput_frame cfg s bytes nowMs sent
      rw [Behind, callStep, hpc, hout] at h
      exact .inl h
  | fire a =>
      simp only [callStep] at h
      split at h
      case isFalse => exact .inl h
      case isTrue hrun =>
        have hstage := hinv.standing
        have hout : s.outcomes = [] := List.isEmpty_iff.mp hrun
        cases hpc : s.pc with
        | unlock next => exact .inr ⟨a, next, rfl, rfl⟩
        | flush b next => exact .inl (.inl ⟨b, next, hpc⟩)
        | landing => exact .inl (.inr (.inl hpc))
        | idle =>
            simp only [Standing, hpc] at hstage
            exact absurd hout hstage.1
        | gate =>
            simp only [Standing, hpc] at hstage
            simp only [fireStep, hpc] at h
            split at h
            · simp [Behind, State.finish, hout, State.sendFailed, unconfirmable, hstage.2.2] at h
            · simp [Behind, State.goto, hout] at h
        | _ =>
            exfalso
            simp only [fireStep, hpc] at h
            repeat' split at h
            all_goals simp [Behind, State.goto, State.emit, State.spoolWrite, hout, hpc] at h

theorem unlocked_of_behind {cfg : FireConfig} {s : State} {rec : PendingRecord} {run : List Event}
    (h : Behind rec (callAfter cfg s rec run)) :
    ∃ pre post a next, run = pre ++ Event.fire a :: post ∧
      (callAfter cfg s rec pre).pc = Pc.unlock next := by
  induction run using List.reverseRecOn with
  | nil => simp [Behind, callAfter, State.calling] at h
  | append_singleton run e ih =>
      rw [callAfter_snoc] at h
      obtain hpast | ⟨a, next, rfl, hpc⟩ := Behind.of_callStep (callInv_callAfter cfg s rec run) h
      · obtain ⟨pre, post, a, next, rfl, hpc⟩ := ih hpast
        exact ⟨pre, post ++ [e], a, next, by simp, hpc⟩
      · exact ⟨run, [], a, next, rfl, hpc⟩

theorem outcomes_fireStep {cfg : FireConfig} {s : State} {a : Answer} (hpc : s.pc ≠ .landing) :
    (fireStep cfg s a).outcomes = s.outcomes ∨
      ∃ reason, (fireStep cfg s a).outcomes = s.outcomes ++ [s.sendFailed reason] := by
  cases hpc' : s.pc with
  | landing => exact absurd hpc' hpc
  | gate =>
      simp only [fireStep, hpc']
      split
      · exact .inr ⟨"acceptance-unconfirmable", rfl⟩
      · exact .inl rfl
  | flush b next =>
      cases next with
      | landing =>
          refine .inl ?_
          simp only [fireStep, hpc']
          split <;> rfl
      | failed reason =>
          refine .inr ⟨reason, ?_⟩
          simp only [fireStep, hpc']
          split <;> rfl
  | _ =>
      refine .inl ?_
      simp only [fireStep, hpc']
      repeat' split
      all_goals rfl

theorem seen_of_callStep {cfg : FireConfig} {s : State} {e : Event} {id sha : String}
    (h : .terminal (.messageSeen id sha) ∈ (callStep cfg s e).outcomes) :
    .terminal (.messageSeen id sha) ∈ s.outcomes ∨
      ∃ a, e = .fire a ∧ s.pc = .landing ∧ a.scan = .landed ∧
        id = s.record.sendId ∧ sha = s.record.contentSha256 := by
  cases e with
  | human bytes nowMs sent =>
      obtain ⟨-, -, -, hout, -, -⟩ := humanInput_frame cfg s bytes nowMs sent
      rw [callStep, hout] at h
      exact .inl h
  | fire a =>
      simp only [callStep] at h
      split at h
      case isFalse => exact .inl h
      case isTrue =>
        cases hpc : s.pc with
        | landing =>
            simp only [fireStep, hpc, landingStep] at h
            cases hscan : a.scan with
            | landed =>
                simp only [hscan, State.finish, List.mem_append, List.mem_singleton] at h
                refine h.imp_right fun h => ⟨a, rfl, rfl, hscan, ?_⟩
                simpa using h
            | mismatch sha' len =>
                refine .inl ?_
                simpa [hscan, State.finish] using h
            | unconfirmed =>
                refine .inl ?_
                simp only [hscan] at h
                split at h
                · simpa [State.finish] using h
                · split at h <;> simpa [State.finish] using h
        | _ =>
            refine .inl ?_
            obtain hout | ⟨reason, hout⟩ := @outcomes_fireStep cfg s a (by simp [hpc])
            · rwa [hout] at h
            · simpa [hout, State.sendFailed] using h

/-- The effects of a call of `fire`, in any state of the session, for any record, with any
answers and any input of the human in between. -/
theorem fireTraceSafe (cfg : FireConfig) (s : State) (rec : PendingRecord) (run : List Event) :
    FireTraceSafe cfg s rec run where
  always := (callInv_callAfter cfg s rec run).safe
  unrecorded := by
    rintro pre post a draft rfl hpc hdurable
    have hinv := callInv_callAfter cfg s rec pre
    have hstage := hinv.standing
    simp only [Standing, hpc] at hstage
    obtain ⟨hout, htrace, -, -⟩ := hstage
    have hleave : LeavingUntouched (callStep cfg (callAfter cfg s rec pre) (.fire a)) := by
      refine ⟨?_, .inl ⟨draft, "inject-failed", ?_⟩⟩
      · simp [callStep, hout, fireStep, hpc, hdurable, htrace]
      · simp [callStep, hout, fireStep, hpc, hdurable, State.goto]
    rw [callAfter_append]
    exact (List.foldlRecOn post (callStep cfg) hleave fun _ h e _ => h.step cfg e).untouched
  flushed := by
    intro hreturned hgate
    obtain ⟨pre, post, a, next, rfl, hpc⟩ :=
      unlocked_of_behind (.inr (.inr ⟨hreturned, hgate⟩))
    refine ⟨pre, post, a, next, rfl, hpc, ?_⟩
    have hstage := (callInv_callAfter cfg s rec pre).standing
    simp only [Standing, hpc] at hstage
    obtain ⟨hout, -, hunflushed⟩ := hstage
    generalize hb : (callAfter cfg s rec pre).lock.buffer = b
    have hdrain : Draining b (callStep cfg (callAfter cfg s rec pre) (.fire a)) := by
      refine .inl ⟨⟨next, ?_⟩, ?_, ?_⟩
      · simp [callStep, hout, fireStep, hpc, InputLock.unlockAndDrain, hb]
      · simpa [callStep, hout, fireStep, hpc, State.fireTrace] using hunflushed
      · simp [callStep, hout, fireStep, hpc]
    rw [callAfter_append] at hreturned ⊢
    obtain ⟨-, -, hrun⟩ | ⟨-, hdone⟩ :=
      List.foldlRecOn post (callStep cfg) hdrain fun _ h e _ => Draining.step h cfg e
    · exact absurd hrun hreturned
    · exact hdone
  seen := by
    induction run using List.reverseRecOn with
    | nil => simp [callAfter, State.calling]
    | append_singleton run e ih =>
        intro id sha h
        rw [callAfter_snoc] at h
        obtain hpast | ⟨a, rfl, hpc, hscan, hid, hsha⟩ := seen_of_callStep h
        · obtain ⟨hid, hsha, pre, post, a, rfl, hpc, hscan⟩ := ih id sha hpast
          exact ⟨hid, hsha, pre, post ++ [e], a, by simp, hpc, hscan⟩
        · have hinv := callInv_callAfter cfg s rec run
          exact ⟨hid.trans hinv.sendId, hsha.trans hinv.contentSha256, run, [], a, rfl, hpc, hscan⟩

end QuorumDispatch.Attended
