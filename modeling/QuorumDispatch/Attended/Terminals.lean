import QuorumDispatch.Attended.Mux
import QuorumDispatch.Lib.Runs
import Mathlib.Data.List.Nodup

/-!
Every accepted send comes to exactly one terminal.

A send leaves the spool after its terminal was appended, by the driver or by the
sweep. The two agree only while the driver's one emitter writes to the ledger that
the sweep would look into, and the removal is justified only while appends
succeed. Under these conditions no send has two terminals, over all ledger files,
and none leaves the spool without one.
-/

namespace QuorumDispatch.Attended

open Lib DeliveryEvents

/-- Exactly one terminal: never two, and none missing once the record is gone. -/
structure OneTerminal (s : Mux) : Prop where
  atMostOne : ∀ id, s.log.terminals id ≤ 1
  kept : ∀ send ∈ s.accepted, s.spool send.1 ≠ none ∨ 0 < s.log.terminals send.1

def Stage.isEmit : Stage → Bool
  | .emit _ => true
  | _ => false

def Mode.runner : Mode → Option Runner
  | .serving r => some r
  | _ => none

/-- A terminal that is due goes to the ledger of the send's own session. -/
def Runner.EmitsHome (cfg : MuxConfig) (r : Runner) : Prop :=
  ∀ firing ∈ r.firing, firing.2.isEmit = true → cfg.stateDir.isSome = true ∧
    r.emitterFor cfg firing.1 = cfg.stateDir.map (ledgerPath · firing.1.session cfg.name)

instance (cfg : MuxConfig) (r : Runner) : Decidable (r.EmitsHome cfg) :=
  inferInstanceAs (Decidable (∀ firing ∈ r.firing, firing.2.isEmit = true → _))

/-- The condition on a step: a send is accepted under a new name, appends succeed,
and the driver's emitter writes to the ledger of the send's own session. -/
def CleanMuxEvent (cfg : MuxConfig) (s : Mux) : MuxEvent → Prop
  | .accept h _ _ => h.sendId ≠ "" ∧ h.sendId ∉ s.accepted.map Prod.fst
  | .sweep _ _ appended => appended = true
  | .emit appended => appended = true ∧ ∀ r ∈ s.mode.runner, r.EmitsHome cfg
  | _ => True

instance (cfg : MuxConfig) (s : Mux) : ∀ e, Decidable (CleanMuxEvent cfg s e)
  | .accept h _ _ =>
      inferInstanceAs (Decidable (h.sendId ≠ "" ∧ h.sendId ∉ s.accepted.map Prod.fst))
  | .sweep _ _ appended => inferInstanceAs (Decidable (appended = true))
  | .emit appended =>
      inferInstanceAs (Decidable (appended = true ∧ ∀ r ∈ s.mode.runner, r.EmitsHome cfg))
  | .boot .. | .sweepRemove .. | .serve | .snapshot .. | .human .. | .take .. | .fire .. | .panic
  | .remove .. | .crash => .isTrue trivial

/-! ### What a fire does to the spool and how it ends -/

/-- A step of a fire in progress: it writes only records of its own send, and when
it ends the outcome is a terminal of that send or none yet. -/
structure FireDelivers (s s' : State) : Prop where
  sendId : s'.record.sendId = s.record.sendId
  session : s'.record.session = s.record.session
  trace : ∃ es, s'.trace = s.trace ++ es ∧ ∀ rec, .spool rec ∈ es →
    rec.sendId = s.record.sendId ∧ rec.session = s.record.session
  outcome : s'.pc = .idle → ∃ outcome, s'.outcomes.getLast? = some outcome ∧
    ∀ payload, outcome = .terminal payload → s.record.sendId ≠ "" →
      isTerminalFor s.record.sendId payload = true

variable {cfg : FireConfig} {s s' : State} {a : Answer}

theorem FireDelivers.goto (pc : Pc) (hpc : pc ≠ .idle) : FireDelivers s (s.goto pc) :=
  ⟨rfl, rfl, ⟨[], (List.append_nil _).symm, by simp⟩, fun h => absurd h hpc⟩

theorem FireDelivers.finish (outcome : FireOutcome)
    (h : ∀ payload, outcome = .terminal payload → s.record.sendId ≠ "" →
      isTerminalFor s.record.sendId payload = true) :
    FireDelivers s (s.finish outcome) :=
  ⟨rfl, rfl, ⟨[], (List.append_nil _).symm, by simp⟩, fun _ => ⟨outcome, by simp [State.finish], h⟩⟩

theorem isTerminalFor_sendFailed (s : State) (reason : String) (payload : Payload)
    (h : s.sendFailed reason = .terminal payload) (hne : s.record.sendId ≠ "") :
    isTerminalFor s.record.sendId payload = true := by
  obtain rfl : Payload.sendFailed _ _ _ = payload := FireOutcome.terminal.inj h
  have hsome : (some s.record.sendId).filter (!·.isEmpty) = some s.record.sendId := by
    simp [hne]
  simp only [isTerminalFor, Payload.sendId, hsome]
  simp [Payload.eventName, isTerminal, terminalEvents]

/-- A step that writes to the terminal before it goes on. -/
theorem FireDelivers.emit {pc : Pc} {e : Effect} (hpc : pc ≠ .idle)
    (he : ∀ rec, e ≠ .spool rec) : FireDelivers s ((s.emit e).goto pc) :=
  ⟨rfl, rfl, ⟨[e], rfl, fun rec h => absurd (List.mem_singleton.mp h).symm (he rec)⟩,
    fun h => absurd h hpc⟩

theorem FireDelivers.spoolWrite {pc : Pc} {rec : PendingRecord} {durable : Bool}
    (hpc : pc ≠ .idle) (hid : rec.sendId = s.record.sendId)
    (hsession : rec.session = s.record.session) :
    FireDelivers s ((s.spoolWrite rec durable).goto pc) := by
  refine ⟨hid, hsession, ?_, fun h => absurd h hpc⟩
  cases durable with
  | false => exact ⟨[], (List.append_nil _).symm, by simp⟩
  | true =>
      refine ⟨[.spool rec], rfl, ?_⟩
      intro rec' h
      obtain rfl : rec' = rec := by simpa using h
      exact ⟨hid, hsession⟩

theorem landingStep_delivers (hpc : s.pc ≠ .idle) : FireDelivers s (landingStep cfg s a) := by
  unfold landingStep
  split
  · apply FireDelivers.finish
    rintro payload h -
    obtain rfl := FireOutcome.terminal.inj h
    simp [isTerminalFor, Payload.sendId, Payload.eventName, isTerminal, terminalEvents]
  · apply FireDelivers.finish
    rintro payload h -
    obtain rfl := FireOutcome.terminal.inj h
    simp [isTerminalFor, Payload.sendId, Payload.eventName, isTerminal, terminalEvents]
  · split
    · apply FireDelivers.finish
      rintro payload h -
      obtain rfl := FireOutcome.terminal.inj h
      simp [isTerminalFor, Payload.sendId, Payload.eventName, isTerminal, terminalEvents]
    · split
      · apply FireDelivers.finish
        intro payload h
        cases h
      · exact ⟨rfl, rfl, ⟨[], (List.append_nil _).symm, by simp⟩, fun h => absurd h hpc⟩

theorem fireStep_delivers (cfg : FireConfig) (a : Answer) (hpc : s.pc ≠ .idle) :
    FireDelivers s (fireStep cfg s a) := by
  unfold fireStep
  split
  · next h => exact absurd h hpc
  · split
    · exact .finish _ (isTerminalFor_sendFailed s _)
    · exact .goto _ (by simp)
  · exact ⟨rfl, rfl, ⟨[], (List.append_nil _).symm, by simp⟩, fun h => by cases h⟩
  · split
    · exact .goto _ (by simp)
    · split
      · exact .goto _ (by simp)
      · exact .goto _ (by simp)
  · cases a.durable with
    | true => exact .spoolWrite (by simp) rfl rfl
    | false => exact .spoolWrite (by simp) rfl rfl
  · simp only
    split
    · exact .emit (by simp) (by simp)
    · split
      · exact .emit (by simp) (by simp)
      · split
        · exact .emit (by simp) (by simp)
        · exact .emit (by simp) (by simp)
  · split
    · exact .goto _ (by simp)
    · exact .goto _ (by simp)
  · split
    · exact ⟨rfl, rfl, ⟨[_], rfl, by simp⟩, fun h => absurd h hpc⟩
    · exact ⟨rfl, rfl, ⟨[_], rfl, by simp⟩, fun h => absurd h hpc⟩
    · split
      · exact .goto _ (by simp)
      · exact .goto _ (by simp)
  · exact .spoolWrite (by simp) rfl rfl
  · simp only
    split
    · exact .emit (by simp) (by simp)
    · exact .goto _ (by simp)
  · exact ⟨rfl, rfl, ⟨[], (List.append_nil _).symm, by simp⟩, fun h => by cases h⟩
  · next buffered next hflush =>
      -- the write of the buffered bytes, then the way out of a failure or on to the landing
      have hwrite : ∃ es, (if buffered.isEmpty then s
          else s.emit (.flush (buffered.take a.sent))) = { s with trace := s.trace ++ es } ∧
          ∀ rec, Effect.spool rec ∉ es := by
        split
        · exact ⟨[], by simp, by simp⟩
        · exact ⟨[.flush (buffered.take a.sent)], rfl, by simp⟩
      obtain ⟨es, hes, hquiet⟩ := hwrite
      simp only [hes]
      cases next with
      | failed reason =>
          refine ⟨rfl, rfl, ⟨es, rfl, fun rec h => absurd h (hquiet rec)⟩, fun _ => ?_⟩
          exact ⟨_, List.getLast?_concat, isTerminalFor_sendFailed s reason⟩
      | landing =>
          exact ⟨rfl, rfl, ⟨es, rfl, fun rec h => absurd h (hquiet rec)⟩, fun h => by cases h⟩
  · exact landingStep_delivers hpc

/-! ### The durable state -/

def Known (accepted : List (String × Option String)) (rec : PendingRecord) : Prop :=
  (rec.sendId, rec.session) ∈ accepted

structure Durable (cfg : MuxConfig) (spool : Spool) (log : Log)
    (accepted : List (String × Option String)) : Prop where
  unique : (accepted.map Prod.fst).Nodup
  named : ∀ send ∈ accepted, send.1 ≠ ""
  atMostOne : ∀ id, log.terminals id ≤ 1
  kept : ∀ send ∈ accepted, spool send.1 ≠ none ∨ 0 < log.terminals send.1
  spooled : ∀ id rec, spool id = some rec → rec.sendId = id ∧ Known accepted rec
  /-- A terminal stands in the ledger of the session that its send named. -/
  home : ∀ path payload id, (path, payload) ∈ log → isTerminalFor id payload = true →
    ∃ session dir, (id, session) ∈ accepted ∧ cfg.stateDir = some dir ∧
      path = ledgerPath dir session cfg.name

theorem isTerminalFor_eq {id id' : String} {p : Payload} (h : isTerminalFor id p = true)
    (h' : isTerminalFor id' p = true) : id' = id := by
  simp only [isTerminalFor, Bool.and_eq_true, beq_iff_eq] at h h'
  exact Option.some.inj (h'.1.symm.trans h.1)

theorem terminals_snoc (log : Log) (path : String) {payload : Payload} {id : String}
    (h : isTerminalFor id payload = true) (id' : String) :
    Log.terminals (log ++ [(path, payload)]) id' =
      log.terminals id' + if id' = id then 1 else 0 := by
  have hiff : isTerminalFor id' payload = true ↔ id' = id := by
    constructor
    · exact isTerminalFor_eq h
    · rintro rfl
      exact h
  simp only [Log.terminals, List.countP_append, List.countP_cons, List.countP_nil, Nat.zero_add]
  by_cases hid : id' = id
  · rw [if_pos (hiff.mpr hid), if_pos hid]
  · rw [if_neg (fun ht => hid (hiff.mp ht)), if_neg hid]

theorem hasTerminal_eq_ledgerHasTerminal {serde : SerdeJson} {log : Log} {path : String}
    {lines : List Emission} (hfile : log.file path = lines.map Emission.payload)
    (hmux : ∀ e ∈ lines, e.writer = .mux) (hlaw : ∀ e ∈ lines, Lawful serde e)
    (hwhole : ∀ e ∈ lines, Whole (e.line serde) e.cut) (id : String) :
    log.hasTerminal path id = ledgerHasTerminal serde (ledgerAfter serde lines) id := by
  rw [Log.hasTerminal, hfile, ledgerHasTerminal_ledgerAfter hmux hlaw hwhole]

theorem terminals_pos_iff {log : Log} {id : String} :
    0 < log.terminals id ↔ ∃ path payload, (path, payload) ∈ log ∧ isTerminalFor id payload = true := by
  simp [Log.terminals, List.countP_pos_iff]

namespace Durable

variable {cfg : MuxConfig} {spool : Spool} {log : Log} {accepted : List (String × Option String)}
  {rec : PendingRecord}

theorem session_eq (h : Durable cfg spool log accepted) {id : String} {x y : Option String}
    (hx : (id, x) ∈ accepted) (hy : (id, y) ∈ accepted) : x = y := by
  have hinj := List.inj_on_of_nodup_map h.unique hx hy rfl
  exact congrArg Prod.snd hinj

/-- The sweep finds a terminal of a send if there is one in any file. -/
theorem hasTerminal_iff (h : Durable cfg spool log accepted) (hrec : Known accepted rec)
    {dir : String} (hdir : cfg.stateDir = some dir) :
    log.hasTerminal (ledgerPath dir rec.session cfg.name) rec.sendId = true ↔
      0 < log.terminals rec.sendId := by
  rw [terminals_pos_iff]
  simp only [Log.hasTerminal, Log.file, List.any_eq_true, List.mem_map, List.mem_filter, beq_iff_eq]
  constructor
  · rintro ⟨payload, ⟨entry, ⟨hmem, -⟩, rfl⟩, hterm⟩
    exact ⟨entry.1, entry.2, hmem, hterm⟩
  · rintro ⟨path, payload, hmem, hterm⟩
    obtain ⟨session, dir', hsend, hdir', rfl⟩ := h.home path payload rec.sendId hmem hterm
    obtain rfl : dir' = dir := Option.some.inj (hdir'.symm.trans hdir)
    obtain rfl : session = rec.session := h.session_eq hsend hrec
    exact ⟨payload, ⟨_, ⟨hmem, rfl⟩, rfl⟩, hterm⟩

theorem append (h : Durable cfg spool log accepted) (hrec : Known accepted rec) {dir : String}
    (hdir : cfg.stateDir = some dir) (hnone : log.terminals rec.sendId = 0) {payload : Payload}
    (hterm : isTerminalFor rec.sendId payload = true) :
    Durable cfg spool (log ++ [(ledgerPath dir rec.session cfg.name, payload)]) accepted := by
  refine ⟨h.unique, h.named, ?_, ?_, h.spooled, ?_⟩
  · intro id
    rw [terminals_snoc log _ hterm]
    split
    · next heq =>
        rw [heq, hnone]
    · exact h.atMostOne id
  · intro send hsend
    rw [terminals_snoc log _ hterm]
    rcases h.kept send hsend with hkept | hpos
    · exact .inl hkept
    · exact .inr (Nat.add_pos_left hpos _)
  · intro path payload' id hmem hterm'
    rcases List.mem_append.mp hmem with hmem | hmem
    · exact h.home path payload' id hmem hterm'
    · obtain ⟨rfl, rfl⟩ := Prod.mk.inj (List.mem_singleton.mp hmem)
      obtain rfl := isTerminalFor_eq hterm hterm'
      exact ⟨rec.session, dir, hrec, hdir, rfl⟩

theorem write (h : Durable cfg spool log accepted) (hrec : Known accepted rec) :
    Durable cfg (spool.write rec) log accepted := by
  refine ⟨h.unique, h.named, h.atMostOne, ?_, ?_, h.home⟩
  · intro send hsend
    by_cases hid : send.1 = rec.sendId
    · exact .inl (by simp [Spool.write, hid])
    · simpa [Spool.write, Function.update_of_ne hid] using h.kept send hsend
  · intro id rec' hload
    by_cases hid : id = rec.sendId
    · subst hid
      obtain rfl : rec = rec' := by simpa [Spool.write] using hload
      exact ⟨rfl, hrec⟩
    · exact h.spooled id rec' (by simpa [Spool.write, Function.update_of_ne hid] using hload)

theorem foldl_write {recs : List PendingRecord} (h : Durable cfg spool log accepted)
    (hrecs : ∀ rec ∈ recs, Known accepted rec) :
    Durable cfg (recs.foldl Spool.write spool) log accepted := by
  induction recs generalizing spool with
  | nil => exact h
  | cons rec recs ih =>
      exact ih (h.write (hrecs rec (by simp))) (fun r hr => hrecs r (by simp [hr]))

theorem replay {es : List Effect} (h : Durable cfg spool log accepted)
    (hes : ∀ rec, .spool rec ∈ es → Known accepted rec) :
    Durable cfg (spool.replay es) log accepted := by
  induction es generalizing spool with
  | nil => exact h
  | cons e es ih =>
      have hrest : ∀ rec, .spool rec ∈ es → Known accepted rec :=
        fun rec hrec => hes rec (List.mem_cons_of_mem _ hrec)
      cases e with
      | spool rec => exact ih (h.write (hes rec (by simp))) hrest
      | _ => exact ih h hrest

theorem remove (h : Durable cfg spool log accepted) {id : String}
    (hterm : 0 < log.terminals id) : Durable cfg (spool.remove id) log accepted := by
  refine ⟨h.unique, h.named, h.atMostOne, ?_, ?_, h.home⟩
  · intro send hsend
    by_cases hid : send.1 = id
    · exact .inr (hid ▸ hterm)
    · simpa [Spool.remove, Function.update_of_ne hid] using h.kept send hsend
  · intro id' rec hload
    by_cases hid : id' = id
    · simp [Spool.remove, hid] at hload
    · exact h.spooled id' rec (by simpa [Spool.remove, Function.update_of_ne hid] using hload)

theorem terminals_of_new (h : Durable cfg spool log accepted) {id : String}
    (hnew : id ∉ accepted.map Prod.fst) : log.terminals id = 0 := by
  by_contra hne
  obtain ⟨path, payload, hmem, hterm⟩ := terminals_pos_iff.mp (Nat.pos_of_ne_zero hne)
  obtain ⟨session, -, hsend, -⟩ := h.home path payload id hmem hterm
  exact hnew (List.mem_map_of_mem hsend)

theorem accept (h : Durable cfg spool log accepted) (hne : rec.sendId ≠ "")
    (hnew : rec.sendId ∉ accepted.map Prod.fst) :
    Durable cfg (spool.write rec) log (accepted ++ [(rec.sendId, rec.session)]) := by
  refine ⟨?_, ?_, h.atMostOne, ?_, ?_, ?_⟩
  · rw [List.map_append, List.nodup_append]
    refine ⟨h.unique, by simp, ?_⟩
    intro id hid id' hid' heq
    obtain rfl : id' = rec.sendId := by simpa using hid'
    exact hnew (heq ▸ hid)
  · intro send hsend
    rcases List.mem_append.mp hsend with hsend | hsend
    · exact h.named send hsend
    · rw [List.mem_singleton.mp hsend]
      exact hne
  · intro send hsend
    by_cases hid : send.1 = rec.sendId
    · exact .inl (by simp [Spool.write, hid])
    · rcases List.mem_append.mp hsend with hsend | hsend
      · simpa [Spool.write, Function.update_of_ne hid] using h.kept send hsend
      · exact absurd (congrArg Prod.fst (List.mem_singleton.mp hsend)) hid
  · intro id rec' hload
    by_cases hid : id = rec.sendId
    · subst hid
      obtain rfl : rec = rec' := by simpa [Spool.write] using hload
      exact ⟨rfl, List.mem_append_right _ (by simp)⟩
    · have hold := h.spooled id rec' (by
        simpa [Spool.write, Function.update_of_ne hid] using hload)
      exact ⟨hold.1, List.mem_append_left _ hold.2⟩
  · intro path payload id hmem hterm
    obtain ⟨session, dir, hsend, hdir, hpath⟩ := h.home path payload id hmem hterm
    exact ⟨session, dir, List.mem_append_left _ hsend, hdir, hpath⟩

end Durable

/-! ### The process -/

/-- What holds of the send that `fire_one` is about, by where it stands. -/
def StageOk (log : Log) (fire : State) (rec : PendingRecord) : Stage → Prop
  | .running => log.terminals rec.sendId = 0 ∧ fire.pc ≠ .idle ∧
      fire.record.sendId = rec.sendId ∧ fire.record.session = rec.session
  | .emit payload => log.terminals rec.sendId = 0 ∧ fire.pc = .idle ∧
      isTerminalFor rec.sendId payload = true
  | .remove => 0 < log.terminals rec.sendId ∧ fire.pc = .idle

structure ServingOk (log : Log) (accepted : List (String × Option String)) (r : Runner) :
    Prop where
  known : ∀ rec ∈ r.sends, Known accepted rec
  pending : ∀ rec ∈ r.sends, log.terminals rec.sendId = 0
  nodup : (r.sends.map PendingRecord.sendId).Nodup
  idle : r.firing = none → r.fire.pc = .idle
  firingKnown : ∀ firing ∈ r.firing, Known accepted firing.1
  firingTaken : ∀ firing ∈ r.firing, firing.1.sendId ∉ r.sends.map PendingRecord.sendId
  firingStage : ∀ firing ∈ r.firing, StageOk log r.fire firing.1 firing.2

def ModeOk (log : Log) (accepted : List (String × Option String)) : Mode → Prop
  | .down => True
  | .sweeping todo => ∀ rec ∈ todo, Known accepted rec
  | .sweptRemove sendId todo => 0 < log.terminals sendId ∧ ∀ rec ∈ todo, Known accepted rec
  | .serving r => ServingOk log accepted r

structure MuxInv (cfg : MuxConfig) (s : Mux) : Prop where
  durable : Durable cfg s.spool s.log s.accepted
  mode : ModeOk s.log s.accepted s.mode

theorem known_of_mem_loadAll {cfg : MuxConfig} {s : Mux} (h : MuxInv cfg s)
    {listing : List String} {rec : PendingRecord} (hrec : rec ∈ s.spool.loadAll listing) :
    Known s.accepted rec := by
  obtain ⟨id, -, hload⟩ := List.mem_filterMap.mp hrec
  exact (h.durable.spooled id rec hload).2

/-- A verdict that is not to be written is that there is a terminal: the session
is gone, so no draft is shown again. -/
theorem verdictPayload_reconcile (rec : PendingRecord) (landing : LandingResult) :
    ∃ payload, verdictPayload (reconcile rec.phase landing false false) rec = some payload ∧
      isTerminalFor rec.sendId payload = true := by
  unfold reconcile
  cases rec.phase <;> cases landing <;>
    simp [verdictPayload, isTerminalFor, Payload.sendId, Payload.eventName, isTerminal,
      terminalEvents]

theorem reconcile_ne_resurface (phase : FirePhase) (landing : LandingResult) (already : Bool) :
    reconcile phase landing false already ≠ .resurfaceDraft := by
  cases phase <;> cases landing <;> cases already <;> decide

theorem sweepOne_inv {cfg : MuxConfig} {s : Mux} {rec : PendingRecord}
    {todo : List PendingRecord} (hinv : MuxInv cfg s) (hmode : s.mode = .sweeping (rec :: todo))
    (landing : LandingScan) (locked : Bool) :
    MuxInv cfg (s.sweepOne cfg rec todo landing locked true) := by
  have hknown : ∀ rec' ∈ rec :: todo, Known s.accepted rec' := by
    have h := hinv.mode
    rw [hmode] at h
    exact h
  have hrec := hknown rec (by simp)
  have htodo : ∀ rec' ∈ todo, Known s.accepted rec' := fun r hr => hknown r (by simp [hr])
  have hstop : MuxInv cfg { s with mode := .sweeping [] } :=
    ⟨hinv.durable, fun rec' h => by cases h⟩
  unfold Mux.sweepOne
  cases locked with
  | false => cases cfg.stateDir <;> exact hstop
  | true =>
      cases hdir : cfg.stateDir with
      | none => exact hstop
      | some dir =>
          have hfound := hinv.durable.hasTerminal_iff hrec hdir
          simp only [if_neg (reconcile_ne_resurface _ _ _)]
          cases halready : s.log.hasTerminal (ledgerPath dir rec.session cfg.name) rec.sendId with
          | true => exact ⟨hinv.durable, hfound.mp halready, htodo⟩
          | false =>
              have hnone : s.log.terminals rec.sendId = 0 := by
                by_contra hne
                have htrue := hfound.mpr (Nat.pos_of_ne_zero hne)
                rw [halready] at htrue
                cases htrue
              obtain ⟨payload, hpayload, hterm⟩ := verdictPayload_reconcile rec landing.toResult
              simp only [hpayload, Mux.append, if_true]
              refine ⟨hinv.durable.append hrec hdir hnone hterm, ?_, htodo⟩
              show 0 < Log.terminals (s.log ++ [_]) rec.sendId
              rw [terminals_snoc s.log _ hterm, if_pos rfl]
              exact Nat.succ_pos _

variable {log : Log} {accepted : List (String × Option String)} {r : Runner}

/-- A fire in progress is unchanged by what does not touch it. -/
theorem StageOk.of_eq {fire fire' : State} {rec : PendingRecord} {stage : Stage}
    (h : StageOk log fire rec stage) (hpc : fire'.pc = fire.pc)
    (hrecord : fire'.record = fire.record) : StageOk log fire' rec stage := by
  cases stage with
  | running =>
      obtain ⟨hnone, hne, hid, hsession⟩ := h
      exact ⟨hnone, by rwa [hpc], by rwa [hrecord], by rwa [hrecord]⟩
  | emit payload =>
      obtain ⟨hnone, hidle, hterm⟩ := h
      exact ⟨hnone, by rwa [hpc], hterm⟩
  | remove =>
      obtain ⟨hpos, hidle⟩ := h
      exact ⟨hpos, by rwa [hpc]⟩

theorem humanInput_keeps (cfg : FireConfig) (s : State) (bytes : Bytes) (nowMs : Int)
    (sent : Nat) : (humanInput cfg s bytes nowMs sent).pc = s.pc ∧
      (humanInput cfg s bytes nowMs sent).record = s.record := by
  unfold humanInput InputLock.admit
  cases hlocked : s.lock.locked <;> simp [hlocked, State.emit]

theorem ServingOk.free (hknown : ∀ rec ∈ r.sends, Known accepted rec)
    (hpending : ∀ rec ∈ r.sends, log.terminals rec.sendId = 0)
    (hnodup : (r.sends.map PendingRecord.sendId).Nodup) (hfree : r.firing = none)
    (hidle : r.fire.pc = .idle) : ServingOk log accepted r := by
  refine ⟨hknown, hpending, hnodup, fun _ => hidle, ?_, ?_, ?_⟩ <;>
    · intro firing h
      cases hfree.symm.trans h

theorem ServingOk.busy {rec : PendingRecord} {stage : Stage}
    (hknown : ∀ rec ∈ r.sends, Known accepted rec)
    (hpending : ∀ rec ∈ r.sends, log.terminals rec.sendId = 0)
    (hnodup : (r.sends.map PendingRecord.sendId).Nodup) (hfiring : r.firing = some (rec, stage))
    (hrec : Known accepted rec) (htaken : rec.sendId ∉ r.sends.map PendingRecord.sendId)
    (hstage : StageOk log r.fire rec stage) : ServingOk log accepted r := by
  refine ⟨hknown, hpending, hnodup, ?_, ?_, ?_, ?_⟩
  · intro h
    cases hfiring.symm.trans h
  all_goals
    intro firing h
    obtain rfl : (rec, stage) = firing := Option.some.inj (hfiring.symm.trans h)
  · exact hrec
  · exact htaken
  · exact hstage

theorem ServingOk.accept (h : ServingOk log accepted r) {rec : PendingRecord}
    (hnew : rec.sendId ∉ accepted.map Prod.fst) (hnone : log.terminals rec.sendId = 0) :
    ServingOk log (accepted ++ [(rec.sendId, rec.session)]) { r with sends := r.sends ++ [rec] } := by
  have hgrow : ∀ rec', Known accepted rec' →
      Known (accepted ++ [(rec.sendId, rec.session)]) rec' :=
    fun rec' hknown => List.mem_append_left _ hknown
  have hother : ∀ rec', Known accepted rec' → rec'.sendId ≠ rec.sendId := by
    intro rec' hknown heq
    exact hnew (heq ▸ List.mem_map_of_mem hknown)
  refine ⟨?_, ?_, ?_, h.idle, ?_, ?_, h.firingStage⟩
  · intro rec' hrec'
    rcases List.mem_append.mp hrec' with hrec' | hrec'
    · exact hgrow rec' (h.known rec' hrec')
    · rw [List.mem_singleton.mp hrec']
      exact List.mem_append_right _ (by simp)
  · intro rec' hrec'
    rcases List.mem_append.mp hrec' with hrec' | hrec'
    · exact h.pending rec' hrec'
    · rw [List.mem_singleton.mp hrec']
      exact hnone
  · rw [List.map_append, List.nodup_append]
    refine ⟨h.nodup, by simp, ?_⟩
    intro id hid id' hid' heq
    obtain ⟨rec', hrec', rfl⟩ := List.mem_map.mp hid
    obtain rfl : id' = rec.sendId := by simpa using hid'
    exact hother rec' (h.known rec' hrec') heq
  · intro firing hfiring
    exact hgrow _ (h.firingKnown firing hfiring)
  · intro firing hfiring hmem
    rw [List.map_append] at hmem
    rcases List.mem_append.mp hmem with hmem | hmem
    · exact h.firingTaken firing hfiring hmem
    · exact hother _ (h.firingKnown firing hfiring) (by simpa using hmem)

/-- The held records may change as long as they stay records of the same sends. -/
theorem ServingOk.map_sends (h : ServingOk log accepted r) {f : PendingRecord → PendingRecord}
    (hid : ∀ rec, (f rec).sendId = rec.sendId) (hsession : ∀ rec, (f rec).session = rec.session) :
    ServingOk log accepted { r with sends := r.sends.map f } := by
  have hids : (r.sends.map f).map PendingRecord.sendId = r.sends.map PendingRecord.sendId := by
    rw [List.map_map]
    exact List.map_congr_left fun rec _ => hid rec
  refine ⟨?_, ?_, ?_, h.idle, h.firingKnown, ?_, h.firingStage⟩
  · intro rec hrec
    obtain ⟨rec', hrec', rfl⟩ := List.mem_map.mp hrec
    have hknown := h.known rec' hrec'
    unfold Known
    rw [hid, hsession]
    exact hknown
  · intro rec hrec
    obtain ⟨rec', hrec', rfl⟩ := List.mem_map.mp hrec
    rw [hid]
    exact h.pending rec' hrec'
  · rw [hids]
    exact h.nodup
  · rw [hids]
    exact h.firingTaken

theorem ServingOk.take (h : ServingOk log accepted r) (hfree : r.firing = none)
    {rec : PendingRecord} {sendId : String}
    (hfound : r.sends.find? (·.sendId == sendId) = some rec) (cfg : FireConfig) (a : Answer) :
    ServingOk log accepted { r with
      sends := r.sends.eraseP (·.sendId == sendId)
      fire := fireStep cfg r.fire { a with record := rec }
      firing := some (rec, .running) } := by
  have hmem : rec ∈ r.sends := List.mem_of_find?_eq_some hfound
  obtain rfl : rec.sendId = sendId := by simpa using List.find?_some hfound
  have hsub : r.sends.eraseP (·.sendId == rec.sendId) ⊆ r.sends := List.eraseP_subset
  have hfire : fireStep cfg r.fire { a with record := rec } =
      { r.fire with pc := .gate, record := rec } := by
    simp only [fireStep, h.idle hfree]
  refine .busy (fun rec' hrec' => h.known rec' (hsub hrec'))
    (fun rec' hrec' => h.pending rec' (hsub hrec')) (h.nodup.sublist (List.eraseP_sublist.map _))
    rfl (h.known rec hmem) ?_ ?_
  · -- the names are distinct, so what is left after the first has another
    intro hmem'
    obtain ⟨held, front, back, -, hheld, hsends, herase⟩ :=
      List.exists_of_eraseP (p := fun rec' => rec'.sendId == rec.sendId) hmem
        (beq_self_eq_true _)
    have hnodup := h.nodup
    rw [hsends, List.map_append, List.map_cons, List.nodup_middle] at hnodup
    simp only [herase, List.map_append] at hmem'
    rw [← beq_iff_eq.mp hheld] at hmem'
    exact (List.nodup_cons.mp hnodup).1 hmem'
  · show StageOk log (fireStep cfg r.fire { a with record := rec }) rec .running
    rw [hfire]
    exact ⟨h.pending rec hmem, by simp, rfl, rfl⟩

/-- A step of the fire in progress, with what `fire_one` does when it ends. -/
theorem fire_inv_mux {cfg : MuxConfig} {s : Mux} {rec : PendingRecord}
    (hdurable : Durable cfg s.spool s.log s.accepted) (hok : ServingOk s.log s.accepted r)
    (hfiring : r.firing = some (rec, .running)) (a : Answer) :
    MuxInv cfg (s.runnerStep cfg r (.fire a)) := by
  obtain ⟨hnone, hbusy, hid, hsession⟩ := hok.firingStage _ hfiring
  have hknown := hok.firingKnown _ hfiring
  have htaken := hok.firingTaken _ hfiring
  obtain ⟨hid', hsession', ⟨es, htrace, hes⟩, houtcome⟩ := fireStep_delivers cfg.fire a hbusy
  have hdurable' : Durable cfg (s.spool.replay
      ((fireStep cfg.fire r.fire a).trace.drop r.fire.trace.length)) s.log s.accepted := by
    rw [htrace, List.drop_left]
    apply hdurable.replay
    intro rec' hrec'
    obtain ⟨hrecId, hrecSession⟩ := hes rec' hrec'
    unfold Known
    rw [hrecId, hrecSession, hid, hsession]
    exact hknown
  simp only [Mux.runnerStep, hfiring]
  split
  · next hidle =>
      obtain ⟨outcome, hlast, hterm⟩ := houtcome hidle
      rw [hlast]
      refine ⟨hdurable', ?_⟩
      cases outcome with
      | pending => exact .free hok.known hok.pending hok.nodup rfl hidle
      | terminal payload =>
          refine .busy hok.known hok.pending hok.nodup rfl hknown htaken ⟨hnone, hidle, ?_⟩
          have hne : r.fire.record.sendId ≠ "" := by
            rw [hid]
            exact hdurable.named _ hknown
          have hfor := hterm payload rfl hne
          rwa [hid] at hfor
  · next hrunning =>
      refine ⟨hdurable', .busy hok.known hok.pending hok.nodup rfl hknown htaken ?_⟩
      exact ⟨hnone, hrunning, hid'.trans hid, hsession'.trans hsession⟩

theorem emit_inv_mux {cfg : MuxConfig} {s : Mux} {rec : PendingRecord} {payload : Payload}
    (hdurable : Durable cfg s.spool s.log s.accepted) (hok : ServingOk s.log s.accepted r)
    (hfiring : r.firing = some (rec, .emit payload)) (hhome : r.EmitsHome cfg) :
    MuxInv cfg (s.runnerStep cfg r (.emit true)) := by
  obtain ⟨hnone, hidle, hterm⟩ := hok.firingStage _ hfiring
  have hknown := hok.firingKnown _ hfiring
  have htaken := hok.firingTaken _ hfiring
  obtain ⟨hsome, hpath⟩ := hhome _ hfiring rfl
  obtain ⟨dir, hdir⟩ := Option.isSome_iff_exists.mp hsome
  rw [hdir, Option.map_some] at hpath
  simp only [Mux.runnerStep, hfiring, hpath, Mux.append, if_true]
  refine ⟨hdurable.append hknown hdir hnone hterm,
    .busy hok.known ?_ hok.nodup rfl hknown htaken ⟨?_, hidle⟩⟩
  · intro rec' hrec'
    have hother : rec'.sendId ≠ rec.sendId :=
      fun heq => htaken (heq ▸ List.mem_map_of_mem hrec')
    rw [terminals_snoc s.log _ hterm, if_neg hother]
    exact hok.pending rec' hrec'
  · rw [terminals_snoc s.log _ hterm, if_pos rfl]
    exact Nat.succ_pos _

theorem runnerStep_inv {cfg : MuxConfig} {s : Mux} {e : MuxEvent} (hinv : MuxInv cfg s)
    (hmode : s.mode = .serving r) (hclean : CleanMuxEvent cfg s e) :
    MuxInv cfg (s.runnerStep cfg r e) := by
  have hdurable := hinv.durable
  have hok : ServingOk s.log s.accepted r := by
    have h := hinv.mode
    rw [hmode] at h
    exact h
  cases e with
  | boot | sweep | sweepRemove | serve | crash => exact hinv
  | accept h nowMs durable =>
      obtain ⟨hne, hnew⟩ := hclean
      cases durable with
      | false => exact hinv
      | true =>
          have hserving := ServingOk.accept hok (show (h.record nowMs).sendId ∉ _ from hnew)
            (hdurable.terminals_of_new hnew)
          exact ⟨Durable.accept hdurable (show (h.record nowMs).sendId ≠ "" from hne) hnew, hserving⟩
  | snapshot sendId durable =>
      simp only [Mux.runnerStep]
      cases hfiring : r.firing with
      | some firing => exact hinv
      | none =>
          refine ⟨?_, ?_⟩
          · cases durable with
            | false => exact hdurable
            | true =>
                apply hdurable.foldl_write
                intro rec hrec
                obtain ⟨held, hheld, rfl⟩ := List.mem_map.mp hrec
                exact hok.known held (List.mem_of_mem_filter hheld)
          · have hserving := hok.map_sends
              (f := fun rec => if rec.sendId == sendId && rec.phase == .accepted
                then r.snapshot rec else rec)
              (by intro rec; split <;> rfl) (by intro rec; split <;> rfl)
            rw [hfiring] at hserving
            exact hserving
  | human bytes nowMs sent =>
      obtain ⟨hpc, hrecord⟩ := humanInput_keeps cfg.fire r.fire bytes nowMs sent
      refine ⟨hdurable, hok.known, hok.pending, hok.nodup, ?_, hok.firingKnown,
        hok.firingTaken, ?_⟩
      · intro h
        rw [hpc]
        exact hok.idle h
      · intro firing h
        exact (hok.firingStage firing h).of_eq hpc hrecord
  | take sendId a =>
      simp only [Mux.runnerStep]
      cases hfiring : r.firing with
      | some firing => exact hinv
      | none =>
          cases hfound : r.sends.find? (·.sendId == sendId) with
          | none => exact hinv
          | some rec => exact ⟨hdurable, hok.take hfiring hfound cfg.fire a⟩
  | fire a =>
      cases hfiring : r.firing with
      | none =>
          simp only [Mux.runnerStep, hfiring]
          exact hinv
      | some firing =>
          obtain ⟨rec, stage⟩ := firing
          cases stage with
          | running => exact fire_inv_mux hdurable hok hfiring a
          | emit payload =>
              simp only [Mux.runnerStep, hfiring]
              exact hinv
          | remove =>
              simp only [Mux.runnerStep, hfiring]
              exact hinv
  | panic =>
      simp only [Mux.runnerStep]
      split
      · exact ⟨hdurable, .free hok.known hok.pending hok.nodup rfl rfl⟩
      · exact hinv
  | emit appended =>
      obtain ⟨rfl, hhome⟩ := hclean
      have hrunner : r.EmitsHome cfg := hhome r (by rw [hmode]; rfl)
      cases hfiring : r.firing with
      | none =>
          simp only [Mux.runnerStep, hfiring]
          exact hinv
      | some firing =>
          obtain ⟨rec, stage⟩ := firing
          cases stage with
          | emit payload => exact emit_inv_mux hdurable hok hfiring hrunner
          | running =>
              simp only [Mux.runnerStep, hfiring]
              exact hinv
          | remove =>
              simp only [Mux.runnerStep, hfiring]
              exact hinv
  | remove removed =>
      simp only [Mux.runnerStep]
      split
      · next rec hfiring =>
          obtain ⟨hpos, hidle⟩ := hok.firingStage _ hfiring
          have hserving : ServingOk s.log s.accepted { r with firing := none } :=
            .free hok.known hok.pending hok.nodup rfl hidle
          cases removed with
          | false => exact ⟨hdurable, hserving⟩
          | true => exact ⟨hdurable.remove hpos, hserving⟩
      · exact hinv

theorem Mux.step_inv {cfg : MuxConfig} {s : Mux} {e : MuxEvent} (hinv : MuxInv cfg s)
    (hclean : CleanMuxEvent cfg s e) : MuxInv cfg (s.step cfg e) := by
  unfold Mux.step
  split
  · exact ⟨hinv.durable, trivial⟩
  · split
    · exact ⟨hinv.durable, fun rec hrec => known_of_mem_loadAll hinv hrec⟩
    · exact ⟨hinv.durable, fun rec hrec => by cases hrec⟩
  · next rec todo landing locked appended hmode =>
      obtain rfl : appended = true := hclean
      exact sweepOne_inv hinv hmode landing locked
  · next sendId todo removed hmode =>
      have h := hinv.mode
      rw [hmode] at h
      obtain ⟨hpos, htodo⟩ := h
      cases removed with
      | false => exact ⟨hinv.durable, htodo⟩
      | true => exact ⟨hinv.durable.remove hpos, htodo⟩
  · exact ⟨hinv.durable, .free (by simp) (by simp) List.nodup_nil rfl rfl⟩
  · next r hmode _ => exact runnerStep_inv hinv hmode hclean
  · exact hinv

/-! ### Runs -/

theorem muxInv_init (cfg : MuxConfig) : MuxInv cfg {} := by
  refine ⟨⟨List.nodup_nil, by simp, fun _ => Nat.zero_le 1, by simp, ?_, by simp⟩, trivial⟩
  intro id rec h
  cases h

def CleanMuxRun (cfg : MuxConfig) (run : List MuxEvent) : Prop :=
  Along (Mux.step cfg) (CleanMuxEvent cfg) {} run

instance (cfg : MuxConfig) (run : List MuxEvent) : Decidable (CleanMuxRun cfg run) :=
  inferInstanceAs (Decidable (Along (Mux.step cfg) (CleanMuxEvent cfg) {} run))

/-- In every run of accepts, fires, crashes and restart sweeps in which sends are
accepted under new names, no append to a ledger fails and the driver's emitter
always writes to the ledger of the send's own session, every state reached has
exactly one terminal for each send that left the spool and at most one for any. -/
theorem oneTerminal_of_cleanMuxRun (cfg : MuxConfig) (run : List MuxEvent)
    (hclean : CleanMuxRun cfg run) (pre post : List MuxEvent) (hrun : run = pre ++ post) :
    OneTerminal (muxAfter cfg pre) := by
  subst hrun
  have hinv : MuxInv cfg (muxAfter cfg pre) :=
    Along.invariant (fun _ _ => Mux.step_inv) (muxInv_init cfg) hclean.front
  exact ⟨hinv.durable.atMostOne, hinv.durable.kept⟩

/-! ### Two sends and a crash -/

def exampleMux : MuxConfig where
  fire :=
    { signal := .busyTransition
      chord := [0x15]
      presses := 1
      reverifyPlain := false
      verifyAttempts := 3
      pasteThreshold := 8 }
  stateDir := some "/state"
  name := "alpha"

def landedAnswer : Answer where
  record := default
  confirmable := true
  plain := some true
  durable := true
  sent := 1000
  inject := .finish true
  scan := .landed
  statusGone := false
  pastDeadline := false

def handoff (sendId session : String) : Handoff where
  sendId
  contentSha256 := "00"
  contentLen := 2
  transcript := none
  transcriptOffset := none
  session := some session
  name := "alpha"
  priority := false

/-- A send is accepted, fired and its terminal appended; its record is still
there. -/
def deliverUpToRemove (sendId session : String) : List MuxEvent :=
  [MuxEvent.accept (handoff sendId session) 0 true, MuxEvent.take sendId landedAnswer] ++
    List.replicate 11 (MuxEvent.fire landedAnswer) ++ [MuxEvent.emit true]

/-- Two sends are delivered by one driver, the second up to a crash before its
record is removed, and the server restarts and sweeps. -/
def twoSendsCrashSweep (first second : String) : List MuxEvent :=
  [MuxEvent.boot [], MuxEvent.serve] ++ deliverUpToRemove "1" first ++ [MuxEvent.remove true] ++
    deliverUpToRemove "2" second ++
    [MuxEvent.crash, MuxEvent.boot ["2"], MuxEvent.sweep .landed true true, MuxEvent.sweepRemove true]

theorem oneTerminal_twoSendsCrashSweep :
    OneTerminal (muxAfter exampleMux (twoSendsCrashSweep "s1" "s1")) :=
  oneTerminal_of_cleanMuxRun exampleMux (twoSendsCrashSweep "s1" "s1") (by decide) _ []
    (List.append_nil _).symm

/-- With different sessions the terminal of the second send went to the ledger of
the first, where the sweep does not look. -/
theorem otherSession_not_oneTerminal :
    ¬OneTerminal (muxAfter exampleMux (twoSendsCrashSweep "s1" "s2")) := by
  intro h
  have hmost := h.atMostOne "2"
  revert hmost
  decide

end QuorumDispatch.Attended
