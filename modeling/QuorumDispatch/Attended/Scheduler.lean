import Mathlib.Order.MinMax
import Mathlib.Order.Lattice
import Mathlib.Algebra.Order.Ring.Int
import QuorumDispatch.Attended.Basic

/-!
Which held send is fired, and when. A send waits until the keyboard has been quiet for a window, and
no longer than its ceiling; the timer task sleeps until the earliest of these instants.
-/

namespace QuorumDispatch.Attended

open Lib

structure AttendedConfig where
  countdownCeilingMs : Int := 60000
  priorityCeilingMs : Int := 10000
  quietWindowMs : Int := 3000
  pasteThreshold : Nat := 8
deriving DecidableEq, Repr

def AttendedConfig.ceiling (cfg : AttendedConfig) (priority : Bool) : Int :=
  if priority then min cfg.priorityCeilingMs cfg.countdownCeilingMs else cfg.countdownCeilingMs

def quietSatisfied (lastKeystrokeMs : Option Int) (nowMs windowMs : Int) : Bool :=
  match lastKeystrokeMs with
  | none => true
  | some t => windowMs ≤ nowMs - t

inductive FireDecision where
  | immediate
  | countdown (deadlineMs : Int)
deriving DecidableEq, Repr

def evaluate (j : Journal) (acceptedAtMs nowMs : Int) (cfg : AttendedConfig) (priority : Bool) :
    FireDecision :=
  let ceilingDeadline := acceptedAtMs + cfg.ceiling priority
  if ceilingDeadline ≤ nowMs then .immediate
  else if j.draft.isEmpty && quietSatisfied j.lastKeystrokeMs nowMs cfg.quietWindowMs then .immediate
  else if quietSatisfied j.lastKeystrokeMs nowMs cfg.quietWindowMs then .immediate
  else
    let quietDeadline := (j.lastKeystrokeMs.map (· + cfg.quietWindowMs)).getD nowMs
    .countdown (min quietDeadline ceilingDeadline)

structure InFlight where
  record : PendingRecord
  message : Bytes
  forced : Bool := false
deriving DecidableEq, Repr

inductive SchedAction where
  | fire (sendId : String)
  | sleep (ms : Nat)
  | idle
deriving DecidableEq, Repr

structure CountdownView where
  deadlineMs : Int
  priority : Bool
deriving DecidableEq, Repr

structure Scheduler where
  sends : List InFlight := []
deriving DecidableEq, Repr

def InFlight.evaluate (j : Journal) (cfg : AttendedConfig) (nowMs : Int) (s : InFlight) :
    FireDecision :=
  Attended.evaluate j s.record.acceptedAtMs.toInt nowMs cfg s.record.priority

namespace Scheduler

def add (s : Scheduler) (record : PendingRecord) (message : Bytes) : Scheduler :=
  { sends := s.sends ++ [{ record := record, message := message }] }

def take (s : Scheduler) (sendId : String) : Scheduler :=
  { sends := s.sends.eraseP (·.record.sendId == sendId) }

def forceFirst (p : InFlight → Bool) : List InFlight → List InFlight
  | [] => []
  | x :: rest => if p x then { x with forced := true } :: rest else x :: forceFirst p rest

def force (s : Scheduler) : Option String → Scheduler
  | some sendId => { sends := forceFirst (·.record.sendId == sendId) s.sends }
  | none => { sends := forceFirst (fun _ => true) s.sends }

/-- The sends in their order: the first that is due is fired, and else the earliest deadline is
slept for. -/
def scan (j : Journal) (cfg : AttendedConfig) (nowMs : Int) (minDeadline : Option Int) :
    List InFlight → SchedAction
  | [] =>
      match minDeadline with
      | some d => .sleep (max (d - nowMs) 0).toNat
      | none => .idle
  | s :: rest =>
      match s.evaluate j cfg nowMs with
      | .immediate => .fire s.record.sendId
      | .countdown d => scan j cfg nowMs (some (minDeadline.elim d (min · d))) rest

def nextAction (s : Scheduler) (j : Journal) (cfg : AttendedConfig) (nowMs : Int) : SchedAction :=
  match s.sends.find? (·.forced) with
  | some f => .fire f.record.sendId
  | none => scan j cfg nowMs none s.sends

def earlier (j : Journal) (cfg : AttendedConfig) (nowMs : Int) (best : Option CountdownView)
    (s : InFlight) : Option CountdownView :=
  match s.evaluate j cfg nowMs with
  | .immediate => best
  | .countdown d =>
      if best.all (d < ·.deadlineMs) then some { deadlineMs := d, priority := s.record.priority }
      else best

def bannerCountdown (s : Scheduler) (j : Journal) (cfg : AttendedConfig) (nowMs : Int) :
    Option CountdownView :=
  if s.sends.any (·.forced) then none else s.sends.foldl (earlier j cfg nowMs) none

/-- A send that has come to its countdown is snapshotted, once. -/
def startSnapshot (j : Journal) (cfg : AttendedConfig) (nowMs : Int) (s : InFlight) :
    InFlight × List PendingRecord :=
  if s.record.phase ≠ .accepted then (s, [])
  else
    match s.evaluate j cfg nowMs with
    | .immediate => (s, [])
    | .countdown _ =>
        let record := { s.record with phase := .countdown, draft := j.draft }
        ({ s with record := record }, [record])

def countdownStartSnapshots (s : Scheduler) (j : Journal) (cfg : AttendedConfig) (nowMs : Int) :
    List PendingRecord × Scheduler :=
  if s.sends.any (·.forced) then ([], s)
  else
    (s.sends.flatMap fun x => (startSnapshot j cfg nowMs x).2,
      { sends := s.sends.map fun x => (startSnapshot j cfg nowMs x).1 })

end Scheduler

/-! ### The timer task -/

/-- The task with the journal of its session, and what it has written and fired so far. -/
structure Driver where
  scheduler : Scheduler := {}
  journal : Journal := {}
  snapshots : List PendingRecord := []
  fired : List String := []

/-- A command, a keystroke, or a turn of the task. Keystrokes may come between the decision of a turn
and its snapshots. -/
inductive DriverEvent where
  | accept (record : PendingRecord) (message : Bytes)
  | deliverNow (sendId : Option String)
  | keystroke (bytes : Bytes) (nowMs : Int)
  | turn (nowMs : Int) (between : List (Bytes × Int))

namespace Driver

def typed (cfg : AttendedConfig) (j : Journal) (burst : Bytes × Int) : Journal :=
  j.onHumanInput burst.1 burst.2 cfg.pasteThreshold

def turn (cfg : AttendedConfig) (d : Driver) (nowMs : Int) (between : List (Bytes × Int)) : Driver :=
  let action := d.scheduler.nextAction d.journal cfg nowMs
  let journal := between.foldl (typed cfg) d.journal
  let (snaps, scheduler) := d.scheduler.countdownStartSnapshots journal cfg nowMs
  let d := { d with scheduler, journal, snapshots := d.snapshots ++ snaps }
  match action with
  | .fire sendId => { d with scheduler := scheduler.take sendId, fired := d.fired ++ [sendId] }
  | _ => d

def step (cfg : AttendedConfig) (d : Driver) : DriverEvent → Driver
  | .accept record message => { d with scheduler := d.scheduler.add record message }
  | .deliverNow sendId => { d with scheduler := d.scheduler.force sendId }
  | .keystroke bytes nowMs => { d with journal := typed cfg d.journal (bytes, nowMs) }
  | .turn nowMs between => d.turn cfg nowMs between

def run (cfg : AttendedConfig) (d : Driver) (events : List DriverEvent) : Driver :=
  events.foldl (step cfg) d

end Driver

/-! ### One send -/

def InFlight.due (cfg : AttendedConfig) (s : InFlight) : Int :=
  s.record.acceptedAtMs.toInt + cfg.ceiling s.record.priority

def Journal.quiet (j : Journal) (cfg : AttendedConfig) (nowMs : Int) : Prop :=
  quietSatisfied j.lastKeystrokeMs nowMs cfg.quietWindowMs = true

section OneSend

variable {j : Journal} {cfg : AttendedConfig} {now : Int} {s : InFlight}

theorem evaluate_immediate : s.evaluate j cfg now = .immediate ↔ s.due cfg ≤ now ∨ j.quiet cfg now := by
  unfold InFlight.evaluate evaluate Journal.quiet InFlight.due
  by_cases hdue : s.record.acceptedAtMs.toInt + cfg.ceiling s.record.priority ≤ now
  · exact iff_of_true (if_pos hdue) (.inl hdue)
  · cases hquiet : quietSatisfied j.lastKeystrokeMs now cfg.quietWindowMs <;> simp [hdue]

theorem quiet_iff {k : Int} (hk : j.lastKeystrokeMs = some k) :
    j.quiet cfg now ↔ k + cfg.quietWindowMs ≤ now := by
  rw [Journal.quiet, hk, quietSatisfied, decide_eq_true_iff]
  omega

theorem exists_keystroke (h : ¬ j.quiet cfg now) : ∃ k, j.lastKeystrokeMs = some k := by
  cases hk : j.lastKeystrokeMs with
  | none => exact absurd (by rw [Journal.quiet, hk]; rfl) h
  | some k => exact ⟨k, rfl⟩

/-- The earlier of the end of the quiet window and of the ceiling. -/
def InFlight.deadline (k : Int) (cfg : AttendedConfig) (s : InFlight) : Int :=
  min (k + cfg.quietWindowMs) (s.due cfg)

theorem evaluate_countdown {k : Int} (hk : j.lastKeystrokeMs = some k) (h : now < s.deadline k cfg) :
    s.evaluate j cfg now = .countdown (s.deadline k cfg) := by
  obtain ⟨hquiet, hdue⟩ := lt_min_iff.mp h
  have hnot : ¬ k + cfg.quietWindowMs ≤ now := not_le.mpr hquiet
  have hsatisfied : quietSatisfied j.lastKeystrokeMs now cfg.quietWindowMs = false :=
    Bool.eq_false_iff.mpr fun hsat => hnot ((quiet_iff hk).mp hsat)
  have hceiling : ¬ s.record.acceptedAtMs.toInt + cfg.ceiling s.record.priority ≤ now :=
    not_le.mpr hdue
  unfold InFlight.evaluate evaluate
  rw [if_neg hceiling, hsatisfied, Bool.and_false, if_neg Bool.false_ne_true,
    if_neg Bool.false_ne_true, hk]
  rfl

theorem lt_deadline_iff {k : Int} (hk : j.lastKeystrokeMs = some k) :
    now < s.deadline k cfg ↔ s.evaluate j cfg now ≠ .immediate := by
  rw [Ne, evaluate_immediate, quiet_iff hk, InFlight.deadline, lt_min_iff, not_or, not_le, not_le,
    and_comm]

end OneSend

/-! ### All sends -/

/-- The earliest deadline of sends, beside one that is there already. -/
def earliest (k : Int) (cfg : AttendedConfig) (sofar : Option Int) (sends : List InFlight) :
    Option Int :=
  sends.foldl (fun m s => some (m.elim (s.deadline k cfg) (min · (s.deadline k cfg)))) sofar

section AllSends

variable {j : Journal} {cfg : AttendedConfig} {now k : Int} {sends : List InFlight}

theorem earliest_cons (sofar : Option Int) (s : InFlight) (rest : List InFlight) :
    earliest k cfg sofar (s :: rest) =
      earliest k cfg (some (sofar.elim (s.deadline k cfg) (min · (s.deadline k cfg)))) rest := rfl

theorem earliest_spec (sofar : Option Int) :
    (earliest k cfg sofar sends = none ↔ sofar = none ∧ sends = []) ∧
      ∀ d, earliest k cfg sofar sends = some d →
        (sofar = some d ∨ ∃ s ∈ sends, s.deadline k cfg = d) ∧
          (∀ m, sofar = some m → d ≤ m) ∧ ∀ s ∈ sends, d ≤ s.deadline k cfg := by
  induction sends generalizing sofar with
  | nil =>
      refine ⟨(and_iff_left rfl).symm, fun d hd => ⟨.inl hd, ?_, List.forall_mem_nil _⟩⟩
      intro m hm
      exact (Option.some.inj (hd.symm.trans hm)).le
  | cons s rest ih =>
      obtain ⟨hnone, hsome⟩ := ih (some (sofar.elim (s.deadline k cfg) (min · (s.deadline k cfg))))
      rw [earliest_cons]
      refine ⟨iff_of_false ?_ ?_, fun d hd => ?_⟩
      · intro h
        cases (hnone.mp h).1
      · intro h
        cases h.2
      · obtain ⟨hfrom, hle, hall⟩ := hsome d hd
        have hbest := hle _ rfl
        have hrest : (∃ x ∈ rest, x.deadline k cfg = d) → ∃ x ∈ s :: rest, x.deadline k cfg = d :=
          fun ⟨x, hx, hxd⟩ => ⟨x, List.mem_cons_of_mem s hx, hxd⟩
        cases sofar with
        | none =>
            rw [Option.elim_none] at hbest hfrom
            refine ⟨.inr ?_, fun m hm => (by cases hm), List.forall_mem_cons.mpr ⟨hbest, hall⟩⟩
            rcases hfrom with heq | hfound
            · exact ⟨s, List.mem_cons_self, Option.some.inj heq⟩
            · exact hrest hfound
        | some m =>
            rw [Option.elim_some] at hbest hfrom
            obtain ⟨hm, hs⟩ := Int.le_min.mp hbest
            have hkept : ∀ m', some m = some m' → d ≤ m' := by
              intro m' hm'
              rwa [← Option.some.inj hm']
            refine ⟨?_, hkept, List.forall_mem_cons.mpr ⟨hs, hall⟩⟩
            rcases hfrom with heq | hfound
            · have hmin : min m (s.deadline k cfg) = d := Option.some.inj heq
              by_cases hfirst : m ≤ s.deadline k cfg
              · exact .inl (by rw [← hmin, Int.min_eq_left hfirst])
              · have hlast : s.deadline k cfg ≤ m := by omega
                exact .inr ⟨s, List.mem_cons_self, by rw [← hmin, Int.min_eq_right hlast]⟩
            · exact .inr (hrest hfound)

theorem scan_held (hk : j.lastKeystrokeMs = some k) (hheld : ∀ s ∈ sends, now < s.deadline k cfg)
    (sofar : Option Int) : Scheduler.scan j cfg now sofar sends =
      match earliest k cfg sofar sends with
      | some d => .sleep (max (d - now) 0).toNat
      | none => .idle := by
  induction sends generalizing sofar with
  | nil => rfl
  | cons s rest ih =>
      obtain ⟨hs, hrest⟩ := List.forall_mem_cons.mp hheld
      rw [Scheduler.scan, evaluate_countdown hk hs]
      exact ih hrest _

theorem scan_due (sofar : Option Int) (h : ∃ s ∈ sends, s.evaluate j cfg now = .immediate) :
    ∃ s ∈ sends, s.evaluate j cfg now = .immediate ∧
      Scheduler.scan j cfg now sofar sends = .fire s.record.sendId := by
  induction sends generalizing sofar with
  | nil =>
      obtain ⟨s, hs, -⟩ := h
      cases hs
  | cons s rest ih =>
      rw [Scheduler.scan]
      cases hs : s.evaluate j cfg now with
      | immediate => exact ⟨s, List.mem_cons_self, hs, rfl⟩
      | countdown d =>
          have hlater : ∃ x ∈ rest, x.evaluate j cfg now = .immediate := by
            obtain ⟨x, hx, hdue⟩ := h
            rcases List.mem_cons.mp hx with rfl | hx
            · rw [hs] at hdue
              cases hdue
            · exact ⟨x, hx, hdue⟩
          obtain ⟨x, hx, hdue, hscan⟩ := ih (some (sofar.elim d (min · d))) hlater
          exact ⟨x, List.mem_cons_of_mem _ hx, hdue, hscan⟩

theorem banner_held (hk : j.lastKeystrokeMs = some k) (hheld : ∀ s ∈ sends, now < s.deadline k cfg)
    (best : Option CountdownView) :
    (sends.foldl (Scheduler.earlier j cfg now) best).map (·.deadlineMs) =
      earliest k cfg (best.map (·.deadlineMs)) sends := by
  induction sends generalizing best with
  | nil => rfl
  | cons s rest ih =>
      obtain ⟨hs, hrest⟩ := List.forall_mem_cons.mp hheld
      rw [List.foldl_cons, ih hrest]
      change earliest k cfg _ rest = earliest k cfg _ rest
      congr 1
      rw [Scheduler.earlier, evaluate_countdown hk hs]
      cases best with
      | none => rfl
      | some view =>
          by_cases hlt : s.deadline k cfg < view.deadlineMs
          · simp [hlt, hlt.le]
          · simp [hlt, not_lt.mp hlt]

end AllSends

/-! ### The timer -/

namespace Scheduler

variable {s : Scheduler} {j : Journal} {cfg : AttendedConfig} {now : Int}

structure TimerBounds (s : Scheduler) (j : Journal) (cfg : AttendedConfig) (now : Int) : Prop where
  forced : (∃ x ∈ s.sends, x.forced = true) →
    ∃ x ∈ s.sends, x.forced = true ∧ s.nextAction j cfg now = .fire x.record.sendId
  due : (∀ x ∈ s.sends, x.forced = false) →
    (∃ x ∈ s.sends, x.due cfg ≤ now ∨ j.quiet cfg now) →
      ∃ x ∈ s.sends, (x.due cfg ≤ now ∨ j.quiet cfg now) ∧
        s.nextAction j cfg now = .fire x.record.sendId
  sleep : ∀ ms : Nat, s.nextAction j cfg now = .sleep ms →
    (∀ t, t < now + ms → ∃ ms' : Nat, s.nextAction j cfg t = .sleep ms' ∧ t + ms' = now + ms) ∧
      (∃ sendId, s.nextAction j cfg (now + ms) = .fire sendId) ∧
      ∃ view, s.bannerCountdown j cfg now = some view ∧ view.deadlineMs = now + ms
  idle : s.nextAction j cfg now = .idle ↔ s.sends = []

structure HeldUntil (s : Scheduler) (j : Journal) (cfg : AttendedConfig) (k d : Int) : Prop where
  keystroke : j.lastKeystrokeMs = some k
  unforced : ∀ x ∈ s.sends, x.forced = false
  earliest : earliest k cfg none s.sends = some d

theorem find?_forced (h : ∀ x ∈ s.sends, x.forced = false) : s.sends.find? (·.forced) = none :=
  List.find?_eq_none.mpr fun x hx hforced => by rw [h x hx] at hforced; cases hforced

theorem HeldUntil.lt {k d : Int} (h : s.HeldUntil j cfg k d) (hlt : now < d) :
    ∀ x ∈ s.sends, now < x.deadline k cfg := by
  intro x hx
  exact lt_of_lt_of_le hlt (((earliest_spec none).2 d h.earliest).2.2 x hx)

theorem HeldUntil.nextAction {k d : Int} (h : s.HeldUntil j cfg k d) (hlt : now < d) :
    s.nextAction j cfg now = .sleep (d - now).toNat := by
  have hmax : max (d - now) 0 = d - now := max_eq_left (by omega)
  rw [Scheduler.nextAction, find?_forced h.unforced]
  change scan j cfg now none s.sends = _
  rw [scan_held h.keystroke (h.lt hlt), h.earliest]
  exact congrArg (fun i : Int => SchedAction.sleep i.toNat) hmax

theorem HeldUntil.due {k d : Int} (h : s.HeldUntil j cfg k d) :
    ∃ x ∈ s.sends, x.evaluate j cfg d = .immediate := by
  rcases ((earliest_spec none).2 d h.earliest).1 with hnone | ⟨x, hx, hxd⟩
  · cases hnone
  · refine ⟨x, hx, ?_⟩
    by_contra hheld
    exact absurd ((lt_deadline_iff h.keystroke).mpr hheld) (by rw [hxd]; exact lt_irrefl d)

theorem nextAction_unforced (h : ∀ x ∈ s.sends, x.forced = false)
    (hdue : ∃ x ∈ s.sends, x.evaluate j cfg now = .immediate) :
    ∃ x ∈ s.sends, x.evaluate j cfg now = .immediate ∧
      s.nextAction j cfg now = .fire x.record.sendId := by
  rw [Scheduler.nextAction, find?_forced h]
  exact scan_due none hdue

theorem nextAction_forced (j : Journal) (cfg : AttendedConfig) (now : Int)
    (h : ∃ x ∈ s.sends, x.forced = true) :
    ∃ x ∈ s.sends, x.forced = true ∧ s.nextAction j cfg now = .fire x.record.sendId := by
  cases hfind : s.sends.find? (·.forced) with
  | none =>
      obtain ⟨x, hx, hforced⟩ := h
      exact absurd hforced (List.find?_eq_none.mp hfind x hx)
  | some x =>
      refine ⟨x, List.mem_of_find?_eq_some hfind, List.find?_some hfind, ?_⟩
      rw [Scheduler.nextAction, hfind]

theorem nextAction_cases (s : Scheduler) (j : Journal) (cfg : AttendedConfig) (now : Int) :
    (∃ x ∈ s.sends, x.forced = true) ∨
      (∀ x ∈ s.sends, x.forced = false) ∧
        ((∃ x ∈ s.sends, x.evaluate j cfg now = .immediate) ∨ s.sends = [] ∨
          ∃ k d, s.HeldUntil j cfg k d ∧ now < d) := by
  by_cases hforced : ∃ x ∈ s.sends, x.forced = true
  · exact .inl hforced
  have hunforced : ∀ x ∈ s.sends, x.forced = false := fun x hx =>
    Bool.eq_false_iff.mpr fun h => hforced ⟨x, hx, h⟩
  refine .inr ⟨hunforced, ?_⟩
  by_cases hdue : ∃ x ∈ s.sends, x.evaluate j cfg now = .immediate
  · exact .inl hdue
  cases hsends : s.sends with
  | nil => exact .inr (.inl rfl)
  | cons x rest =>
      -- nothing is due, so that there was a keystroke
      have hheld : ∀ x ∈ s.sends, x.evaluate j cfg now ≠ .immediate := fun x hx h => hdue ⟨x, hx, h⟩
      have hx : x ∈ s.sends := hsends ▸ List.mem_cons_self
      have hquiet : ¬ j.quiet cfg now := fun hq => hheld x hx (evaluate_immediate.mpr (.inr hq))
      obtain ⟨k, hk⟩ := exists_keystroke hquiet
      cases hearliest : earliest k cfg none s.sends with
      | none =>
          rw [((earliest_spec none).1.mp hearliest).2] at hx
          cases hx
      | some d =>
          refine .inr (.inr ⟨k, d, ⟨hk, hunforced, hearliest⟩, ?_⟩)
          rcases ((earliest_spec none).2 d hearliest).1 with hnone | ⟨y, hy, rfl⟩
          · cases hnone
          · exact (lt_deadline_iff hk).mpr (hheld y hy)

theorem nextAction_nil (h : s.sends = []) : s.nextAction j cfg now = .idle := by
  rw [Scheduler.nextAction, h]
  rfl

theorem heldUntil_of_sleep {ms : Nat} (h : s.nextAction j cfg now = .sleep ms) :
    ∃ k d, s.HeldUntil j cfg k d ∧ now < d ∧ d = now + ms := by
  rcases nextAction_cases s j cfg now with hforced | ⟨hunforced, hdue | hnil | ⟨k, d, hheld, hlt⟩⟩
  · obtain ⟨x, -, -, hx⟩ := nextAction_forced j cfg now hforced
    rw [hx] at h
    cases h
  · obtain ⟨x, -, -, hx⟩ := nextAction_unforced hunforced hdue
    rw [hx] at h
    cases h
  · rw [nextAction_nil hnil] at h
    cases h
  · refine ⟨k, d, hheld, hlt, ?_⟩
    rw [hheld.nextAction hlt] at h
    obtain rfl := SchedAction.sleep.inj h
    omega

theorem mem_of_fire {sendId : String} (h : s.nextAction j cfg now = .fire sendId) :
    ∃ x ∈ s.sends, x.record.sendId = sendId := by
  rcases nextAction_cases s j cfg now with hforced | ⟨hunforced, hdue | hnil | ⟨k, d, hheld, hlt⟩⟩
  · obtain ⟨x, hx, -, hfire⟩ := nextAction_forced j cfg now hforced
    exact ⟨x, hx, SchedAction.fire.inj (hfire.symm.trans h)⟩
  · obtain ⟨x, hx, -, hfire⟩ := nextAction_unforced hunforced hdue
    exact ⟨x, hx, SchedAction.fire.inj (hfire.symm.trans h)⟩
  · rw [nextAction_nil hnil] at h
    cases h
  · rw [hheld.nextAction hlt] at h
    cases h

/-- **The timer**, at every instant. -/
theorem timerBounds (s : Scheduler) (j : Journal) (cfg : AttendedConfig) (now : Int) :
    s.TimerBounds j cfg now where
  forced := nextAction_forced j cfg now
  due hunforced hdue := by
    obtain ⟨x, hx, hxdue⟩ := hdue
    obtain ⟨y, hy, hydue, hfire⟩ :=
      nextAction_unforced hunforced ⟨x, hx, evaluate_immediate.mpr hxdue⟩
    exact ⟨y, hy, evaluate_immediate.mp hydue, hfire⟩
  sleep ms hsleep := by
    obtain ⟨k, d, hheld, hlt, rfl⟩ := heldUntil_of_sleep hsleep
    refine ⟨fun t ht => ⟨(now + ms - t).toNat, hheld.nextAction ht, by omega⟩, ?_, ?_⟩
    · obtain ⟨x, -, -, hx⟩ := nextAction_unforced hheld.unforced hheld.due
      exact ⟨_, hx⟩
    · have hbanner := banner_held hheld.keystroke (hheld.lt hlt) none
      have hany : s.sends.any (·.forced) = false :=
        List.any_eq_false.mpr fun x hx => Bool.eq_false_iff.mp (hheld.unforced x hx)
      rw [Option.map_none, hheld.earliest, Option.map_eq_some_iff] at hbanner
      obtain ⟨view, hview, hdeadline⟩ := hbanner
      refine ⟨view, ?_, hdeadline⟩
      rw [bannerCountdown, hany, if_neg Bool.false_ne_true, hview]
  idle := by
    refine ⟨fun hidle => ?_, nextAction_nil⟩
    rcases nextAction_cases s j cfg now with hforced | ⟨hunforced, hdue | hnil | ⟨k, d, hheld, hlt⟩⟩
    · obtain ⟨x, -, -, hx⟩ := nextAction_forced j cfg now hforced
      rw [hx] at hidle
      cases hidle
    · obtain ⟨x, -, -, hx⟩ := nextAction_unforced hunforced hdue
      rw [hx] at hidle
      cases hidle
    · exact hnil
    · rw [hheld.nextAction hlt] at hidle
      cases hidle

end Scheduler

/-! ### Runs of the task -/

namespace Driver

variable {cfg : AttendedConfig} {d : Driver} {now : Int}

/-- What stays of the sends while they wait: their ids, and when they are due. -/
def waiting (cfg : AttendedConfig) (s : Scheduler) : List (String × Int) :=
  s.sends.map fun x => (x.record.sendId, x.due cfg)

theorem waiting_snapshots (s : Scheduler) (j : Journal) (cfg : AttendedConfig) (now : Int) :
    waiting cfg (s.countdownStartSnapshots j cfg now).2 = waiting cfg s := by
  unfold Scheduler.countdownStartSnapshots
  split
  · rfl
  · rw [waiting, List.map_map]
    refine List.map_congr_left fun x _ => ?_
    rw [Function.comp_apply, Scheduler.startSnapshot]
    split
    · rfl
    · cases x.evaluate j cfg now <;> rfl

theorem waiting_force (s : Scheduler) (sendId : Option String) :
    waiting cfg (s.force sendId) = waiting cfg s := by
  have hforce (p : InFlight → Bool) (sends : List InFlight) :
      waiting cfg ⟨Scheduler.forceFirst p sends⟩ = waiting cfg ⟨sends⟩ := by
    induction sends with
    | nil => rfl
    | cons x rest ih =>
        rw [Scheduler.forceFirst]
        split
        · rfl
        · exact congrArg (_ :: ·) ih
  cases sendId <;> exact hforce _ _

theorem mem_waiting {s : Scheduler} {entry : String × Int} :
    entry ∈ waiting cfg s ↔ ∃ x ∈ s.sends, (x.record.sendId, x.due cfg) = entry :=
  List.mem_map

theorem waiting_take (s : Scheduler) {sendId : String} (h : ∃ due, (sendId, due) ∈ waiting cfg s) :
    (waiting cfg (s.take sendId)).Sublist (waiting cfg s) ∧
      (waiting cfg (s.take sendId)).length + 1 = (waiting cfg s).length := by
  obtain ⟨due, hdue⟩ := h
  obtain ⟨x, hx, heq⟩ := mem_waiting.mp hdue
  have hid : (x.record.sendId == sendId) = true := beq_iff_eq.mpr (Prod.mk.inj heq).1
  have hpos := List.length_pos_of_mem hx
  refine ⟨List.eraseP_sublist.map _, ?_⟩
  rw [waiting, waiting, List.length_map, List.length_map, Scheduler.take,
    List.length_eraseP_of_mem hx hid]
  omega

theorem turn_cases (cfg : AttendedConfig) (d : Driver) (now : Int) (between : List (Bytes × Int)) :
    (∃ x ∈ d.scheduler.sends, (d.turn cfg now between).fired = d.fired ++ [x.record.sendId] ∧
      (waiting cfg (d.turn cfg now between).scheduler).Sublist (waiting cfg d.scheduler) ∧
      (waiting cfg (d.turn cfg now between).scheduler).length + 1 =
        (waiting cfg d.scheduler).length) ∨
      (∀ x ∈ d.scheduler.sends, now < x.due cfg) ∧
        waiting cfg (d.turn cfg now between).scheduler = waiting cfg d.scheduler := by
  have hbounds := d.scheduler.timerBounds d.journal cfg now
  have hsame := waiting_snapshots d.scheduler (between.foldl (typed cfg) d.journal) cfg now
  have hrests (hrest : ∀ sendId, d.scheduler.nextAction d.journal cfg now ≠ .fire sendId) :
      ∀ x ∈ d.scheduler.sends, now < x.due cfg := by
    intro x hx
    by_contra hdue
    by_cases hforced : ∃ x ∈ d.scheduler.sends, x.forced = true
    · obtain ⟨y, -, -, hfire⟩ := hbounds.forced hforced
      exact hrest _ hfire
    · have hunforced : ∀ x ∈ d.scheduler.sends, x.forced = false := fun x hx =>
        Bool.eq_false_iff.mpr fun h => hforced ⟨x, hx, h⟩
      obtain ⟨y, -, -, hfire⟩ := hbounds.due hunforced ⟨x, hx, .inl (not_lt.mp hdue)⟩
      exact hrest _ hfire
  unfold turn
  cases haction : d.scheduler.nextAction d.journal cfg now with
  | fire sendId =>
      obtain ⟨x, hx, rfl⟩ := Scheduler.mem_of_fire haction
      have hmem : ∃ due, (x.record.sendId, due) ∈ waiting cfg
          (d.scheduler.countdownStartSnapshots (between.foldl (typed cfg) d.journal) cfg now).2 := by
        rw [hsame]
        exact ⟨x.due cfg, mem_waiting.mpr ⟨x, hx, rfl⟩⟩
      have htake := waiting_take _ hmem
      rw [hsame] at htake
      exact .inl ⟨x, hx, rfl, htake⟩
  | sleep ms => exact .inr ⟨hrests fun sendId h => (by rw [haction] at h; cases h), hsame⟩
  | idle => exact .inr ⟨hrests fun sendId h => (by rw [haction] at h; cases h), hsame⟩

def turns : List DriverEvent → Nat
  | [] => 0
  | .turn _ _ :: events => turns events + 1
  | _ :: events => turns events

/-- No send is accepted, and the task takes its turns from the instant on. -/
def QuietRun (t : Int) (events : List DriverEvent) : Prop :=
  ∀ e ∈ events, match e with
    | .accept _ _ => False
    | .turn nowMs _ => t ≤ nowMs
    | _ => True

theorem waiting_run {t : Int} {events : List DriverEvent} (hquiet : QuietRun t events)
    (h : ∃ x ∈ (d.run cfg events).scheduler.sends, x.due cfg ≤ t) :
    (∃ x ∈ d.scheduler.sends, x.due cfg ≤ t) ∧
      (waiting cfg (d.run cfg events).scheduler).length + turns events ≤
        (waiting cfg d.scheduler).length := by
  have hmono {s s' : Scheduler} (hsub : ∀ entry ∈ waiting cfg s', entry ∈ waiting cfg s)
      (h : ∃ x ∈ s'.sends, x.due cfg ≤ t) : ∃ x ∈ s.sends, x.due cfg ≤ t := by
    obtain ⟨x, hx, hdue⟩ := h
    obtain ⟨y, hy, heq⟩ := mem_waiting.mp (hsub _ (mem_waiting.mpr ⟨x, hx, rfl⟩))
    exact ⟨y, hy, (Prod.mk.inj heq).2 ▸ hdue⟩
  induction events generalizing d with
  | nil => exact ⟨h, Nat.le_refl _⟩
  | cons e events ih =>
      obtain ⟨he, hrest⟩ := List.forall_mem_cons.mp hquiet
      obtain ⟨hbehind, hlen⟩ := ih (d := d.step cfg e) hrest h
      cases e with
      | accept record message => exact absurd he id
      | deliverNow sendId =>
          have hsame : waiting cfg (d.step cfg (.deliverNow sendId)).scheduler = waiting cfg d.scheduler :=
            waiting_force d.scheduler sendId
          rw [hsame] at hlen
          exact ⟨hmono (fun entry hentry => hsame ▸ hentry) hbehind, hlen⟩
      | keystroke bytes nowMs => exact ⟨hbehind, hlen⟩
      | turn nowMs between =>
          rcases turn_cases cfg d nowMs between with
            ⟨x, -, -, hsub, hless⟩ | ⟨hnone, hsame⟩
          · refine ⟨hmono (fun entry hentry => hsub.subset hentry) hbehind, ?_⟩
            calc (waiting cfg ((d.turn cfg nowMs between).run cfg events).scheduler).length +
                  (turns events + 1)
                ≤ (waiting cfg (d.turn cfg nowMs between).scheduler).length + 1 :=
                  Nat.succ_le_succ hlen
              _ = (waiting cfg d.scheduler).length := hless
          · obtain ⟨x, hx, hdue⟩ := hmono (fun entry hentry => hsame ▸ hentry) hbehind
            have hlt := hnone x hx
            exact absurd (le_trans hdue he) (not_le.mpr hlt)

/-! ### Snapshots -/

def unsnapshotted (sendId : String) (s : Scheduler) : Nat :=
  s.sends.countP fun x => x.record.sendId == sendId && x.record.phase == .accepted

def accepts (sendId : String) (events : List DriverEvent) : Nat :=
  events.countP fun
    | .accept record _ => record.sendId == sendId
    | _ => false

def snapshotted (sendId : String) (records : List PendingRecord) : Nat :=
  records.countP (·.sendId == sendId)

variable {sendId : String}

theorem snapshotted_startSnapshot (sendId : String) (j : Journal) (cfg : AttendedConfig) (now : Int) (x : InFlight) :
    snapshotted sendId (Scheduler.startSnapshot j cfg now x).2 +
        unsnapshotted sendId ⟨[(Scheduler.startSnapshot j cfg now x).1]⟩ =
      unsnapshotted sendId ⟨[x]⟩ := by
  rw [Scheduler.startSnapshot]
  by_cases hphase : x.record.phase = .accepted
  · rw [if_neg (not_not.mpr hphase)]
    cases x.evaluate j cfg now with
    | immediate => exact Nat.zero_add _
    | countdown d => simp [snapshotted, unsnapshotted, hphase]
  · rw [if_pos hphase]
    exact Nat.zero_add _

theorem unsnapshotted_cons (x : InFlight) (rest : List InFlight) :
    unsnapshotted sendId ⟨x :: rest⟩ = unsnapshotted sendId ⟨[x]⟩ + unsnapshotted sendId ⟨rest⟩ :=
  @List.countP_append _ _ [x] _

theorem snapshotted_flatMap (sends : List InFlight) (j : Journal) (cfg : AttendedConfig) (now : Int) :
    snapshotted sendId (sends.flatMap fun x => (Scheduler.startSnapshot j cfg now x).2) +
        unsnapshotted sendId ⟨sends.map fun x => (Scheduler.startSnapshot j cfg now x).1⟩ =
      unsnapshotted sendId ⟨sends⟩ := by
  induction sends with
  | nil => rfl
  | cons x rest ih =>
      have hx := snapshotted_startSnapshot sendId j cfg now x
      rw [List.flatMap_cons, List.map_cons, unsnapshotted_cons, unsnapshotted_cons x rest,
        snapshotted, List.countP_append]
      unfold snapshotted at ih hx
      omega

theorem snapshotted_countdownStart (sendId : String) (s : Scheduler) (j : Journal) (cfg : AttendedConfig) (now : Int) :
    snapshotted sendId (s.countdownStartSnapshots j cfg now).1 +
        unsnapshotted sendId (s.countdownStartSnapshots j cfg now).2 =
      unsnapshotted sendId s := by
  unfold Scheduler.countdownStartSnapshots
  split
  · exact Nat.zero_add _
  · exact snapshotted_flatMap s.sends j cfg now

theorem unsnapshotted_force (s : Scheduler) (target : Option String) :
    unsnapshotted sendId (s.force target) = unsnapshotted sendId s := by
  have hforce (p : InFlight → Bool) (sends : List InFlight) :
      unsnapshotted sendId ⟨Scheduler.forceFirst p sends⟩ = unsnapshotted sendId ⟨sends⟩ := by
    induction sends with
    | nil => rfl
    | cons x rest ih =>
        rw [Scheduler.forceFirst]
        split
        · rfl
        · rw [unsnapshotted_cons, unsnapshotted_cons x rest, ih]
  cases target <;> exact hforce _ _

theorem unsnapshotted_take (s : Scheduler) (taken : String) :
    unsnapshotted sendId (s.take taken) ≤ unsnapshotted sendId s :=
  List.eraseP_sublist.countP_le

theorem unsnapshotted_add (sendId : String) (s : Scheduler) (record : PendingRecord) (message : Bytes) :
    unsnapshotted sendId (s.add record message) ≤
      unsnapshotted sendId s + (if record.sendId == sendId then 1 else 0) := by
  unfold unsnapshotted Scheduler.add
  rw [List.countP_append, List.countP_singleton]
  refine Nat.add_le_add_left ?_ _
  by_cases hid : record.sendId == sendId <;> simp only [hid, Bool.true_and, Bool.false_and] <;>
    grind

theorem snapshotted_step (cfg : AttendedConfig) (sendId : String) (d : Driver) (e : DriverEvent) :
    snapshotted sendId (d.step cfg e).snapshots + unsnapshotted sendId (d.step cfg e).scheduler ≤
      snapshotted sendId d.snapshots + unsnapshotted sendId d.scheduler + accepts sendId [e] := by
  cases e with
  | accept record message =>
      have hadd := unsnapshotted_add sendId d.scheduler record message
      have haccepts : accepts sendId [.accept record message] =
          if record.sendId == sendId then 1 else 0 := List.countP_singleton
      rw [haccepts, Nat.add_assoc]
      exact Nat.add_le_add_left hadd _
  | deliverNow target =>
      exact Nat.add_le_add_left (unsnapshotted_force d.scheduler target).le _
  | keystroke bytes nowMs => exact Nat.le_refl _
  | turn nowMs between =>
      have hstart := snapshotted_countdownStart sendId d.scheduler
        (between.foldl (typed cfg) d.journal) cfg nowMs
      have happend (snaps : List PendingRecord) : snapshotted sendId (d.snapshots ++ snaps) =
          snapshotted sendId d.snapshots + snapshotted sendId snaps := List.countP_append
      change _ ≤ snapshotted sendId d.snapshots + unsnapshotted sendId d.scheduler
      rw [← hstart, ← Nat.add_assoc, ← happend]
      rw [step, turn]
      cases d.scheduler.nextAction d.journal cfg nowMs with
      | fire taken => exact Nat.add_le_add_left (unsnapshotted_take _ taken) _
      | sleep ms => exact Nat.le_refl _
      | idle => exact Nat.le_refl _

theorem snapshotted_run (cfg : AttendedConfig) (sendId : String) (d : Driver) (events : List DriverEvent) :
    snapshotted sendId (d.run cfg events).snapshots +
        unsnapshotted sendId (d.run cfg events).scheduler ≤
      snapshotted sendId d.snapshots + unsnapshotted sendId d.scheduler + accepts sendId events := by
  induction events generalizing d with
  | nil => exact Nat.le_refl _
  | cons e events ih =>
      have hstep := snapshotted_step cfg sendId d e
      have haccepts : accepts sendId (e :: events) = accepts sendId [e] + accepts sendId events :=
        @List.countP_append _ _ [e] _
      rw [haccepts, ← Nat.add_assoc]
      exact le_trans (ih (d.step cfg e)) (Nat.add_le_add_right hstep _)

end Driver

end QuorumDispatch.Attended
