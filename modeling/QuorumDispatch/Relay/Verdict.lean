import QuorumDispatch.Relay.Window

/-!
What a call of `deliver_reply` reports, and what polls are answered with after it.
-/

namespace QuorumDispatch.Relay

open Lib

namespace Server

variable {s s' : Server}

/-! ### The buffer -/

structure Quiet (s s' : Server) : Prop where
  calls : s'.calls = s.calls
  buffered : s'.buffered = s.buffered
  resolved : s'.relay.resolved = s.relay.resolved
  phase : ∀ k, (s'.callPhase k).hasBuffered = true → (s.callPhase k).hasBuffered = true

/-- A call that is past its lock span is in the log, and the buffer has the text of the last
call in the log for the id. -/
structure Logged (s : Server) : Prop where
  mem : ∀ k c, s.calls[k]? = some c → (s.callPhase k).hasBuffered = true → k ∈ s.buffered
  known : ∀ k ∈ s.buffered, k < s.calls.length
  newest : ∀ k c, k ∈ s.buffered → s.calls[k]? = some c →
    ∃ entry, s.relay.resolved c.id = some entry ∧ s.FromOrAfter k c entry.text

theorem Logged.quiet (h : s.Logged) (hquiet : s.Quiet s') : s'.Logged where
  mem k c hc hk := by
    rw [hquiet.buffered]
    exact h.mem k c (hquiet.calls ▸ hc) (hquiet.phase k hk)
  known k hk := by
    rw [hquiet.calls]
    exact h.known k (hquiet.buffered ▸ hk)
  newest k c hk hc := by
    obtain ⟨entry, hentry, hlog⟩ := h.newest k c (hquiet.buffered ▸ hk) (hquiet.calls ▸ hc)
    refine ⟨entry, by rw [hquiet.resolved, hentry], ?_⟩
    unfold FromOrAfter
    rw [hquiet.calls, hquiet.buffered]
    exact hlog

theorem Quiet.setCall {k : Nat} {phase : CallPhase} {relay : RelayState}
    (hrelay : relay.resolved = s.relay.resolved)
    (hphase : phase.hasBuffered = true → (s.callPhase k).hasBuffered = true) :
    s.Quiet ((s.setRelay relay).setCall k phase) where
  calls := rfl
  buffered := rfl
  resolved := hrelay
  phase j hj := by
    rw [setCall_callPhase] at hj
    split_ifs at hj with hjk
    · exact hjk ▸ hphase hj
    · exact hj

theorem Quiet.setPoll {p : Nat} {phase : PollPhase} {relay : RelayState}
    (hrelay : relay.resolved = s.relay.resolved) :
    s.Quiet ((s.setRelay relay).setPoll p phase) := ⟨rfl, rfl, hrelay, fun _ => id⟩

theorem offerAck_resolved (r : RelayState) (id : MessageId) (written : Bool) :
    (r.offerAck id written).resolved = r.resolved := by
  unfold RelayState.offerAck
  split_ifs <;> rfl

theorem Quiet.get {id : MessageId} {now : Nat} (hfresh : s.fresh id now = true) (drained : Bool) :
    s.Quiet (s.get id drained now) := by
  unfold Server.get
  dsimp only
  rw [peekResolved_of_fresh hfresh]
  cases s.relay.resolved id with
  | some entry => exact ⟨rfl, rfl, rfl, fun _ h => h⟩
  | none =>
      dsimp only [Option.map_none]
      split_ifs <;> exact ⟨rfl, rfl, rfl, fun _ h => h⟩

theorem Logged.addCall (h : s.Logged) (c : Call) :
    ({ s with calls := s.calls ++ [c] }.setCall s.calls.length .entering).Logged where
  mem k ck hck hk := by
    rw [setCall_callPhase] at hk
    split_ifs at hk with hlast
    · cases hk
    · exact h.mem k ck (getElem?_of_snoc hck hlast) hk
  known k hk := by
    have hlt := h.known k hk
    simp only [Server.setCall, List.length_append, List.length_singleton]
    omega
  newest k ck hk hck := by
    have hlt := h.known k hk
    obtain ⟨entry, hentry, hlog⟩ := h.newest k ck hk (getElem?_of_snoc hck (by omega))
    exact ⟨entry, hentry, hlog.mono rfl (List.append_nil _).symm⟩

theorem Logged.enterSpan (h : s.Logged) {k : Nat} {c : Call} (hc : s.calls[k]? = some c)
    (now : Nat) : (s.enterSpan k c now).Logged where
  mem j cj hcj hj := by
    by_cases hjk : j = k
    · exact List.mem_append_right _ (by simp [hjk])
    · rw [enterSpan_callPhase s hjk] at hj
      exact List.mem_append_left _ (h.mem j cj hcj hj)
  known j hj := by
    obtain hj | hj := List.mem_append.mp hj
    · exact h.known j hj
    · rw [List.mem_singleton.mp hj]
      exact (List.getElem?_eq_some_iff.mp hc).1
  newest j cj hj hcj := by
    by_cases hid : cj.id = c.id
    · obtain ⟨i, hi⟩ := List.getElem?_of_mem hj
      have hlt := (List.getElem?_eq_some_iff.mp hi).1
      refine ⟨_, (enterSpan_resolved ..).trans (if_pos hid), i, s.buffered.length, k, c, hi, ?_, ?_,
        hc, hid.symm, rfl⟩
      · simp only [Server.enterSpan, Server.setCall, List.length_append,
          List.length_singleton] at hlt
        omega
      · exact List.getElem?_concat_length
    · have hjk : j ≠ k := by
        rintro rfl
        cases hcj.symm.trans hc
        exact hid rfl
      have hold : j ∈ s.buffered := by
        obtain hj | hj := List.mem_append.mp hj
        · exact hj
        · exact absurd (List.mem_singleton.mp hj) hjk
      obtain ⟨entry, hentry, hlog⟩ := h.newest j cj hold hcj
      refine ⟨entry, ?_, hlog.mono (List.append_nil _).symm rfl⟩
      rw [enterSpan_resolved, if_neg hid, hentry]

theorem Logged.step? {step : Step} (h : s.Logged) (hfresh : s.withinTtl step = true)
    (hstep : s.step? step = some s') : s'.Logged := by
  cases step with
  | deliver c =>
      cases hstep
      exact h.addCall c
  | enter k now =>
      obtain ⟨c, hc, hstep⟩ := Option.bind_eq_some_iff.mp hstep
      obtain ⟨-, hstep⟩ := guard_bind_eq_some.mp hstep
      cases hstep
      split_ifs
      · exact h.quiet (.setCall rfl nofun)
      · exact h.enterSpan hc now
  | resume k now =>
      obtain ⟨c, hc, hstep⟩ := Option.bind_eq_some_iff.mp hstep
      obtain ⟨-, hstep⟩ := guard_bind_eq_some.mp hstep
      cases hstep
      exact h.enterSpan hc now
  | expire k now =>
      obtain ⟨c, hc, hstep⟩ := Option.bind_eq_some_iff.mp hstep
      obtain ⟨-, hstep⟩ := guard_bind_eq_some.mp hstep
      cases hstep
      exact h.enterSpan hc now
  | lookup k data =>
      simp only [Server.step?, Server.lookup?] at hstep
      split at hstep
      next hphase =>
        cases hstep
        exact h.quiet (.setCall rfl fun _ => by rw [hphase]; rfl)
      next => cases hstep
  | takeAck k =>
      obtain ⟨c, -, hstep⟩ := Option.bind_eq_some_iff.mp hstep
      split at hstep
      next hphase htake =>
        have hrelay := congrArg (fun taken => RelayState.resolved taken.2) htake
        split_ifs at hstep <;> cases hstep <;>
          exact h.quiet (.setCall hrelay.symm fun _ => by rw [hphase]; rfl)
      next => cases hstep
  | ackExpire k =>
      obtain ⟨c, -, hstep⟩ := Option.bind_eq_some_iff.mp hstep
      split at hstep
      next hphase htake =>
        have hrelay := congrArg (fun taken => RelayState.resolved taken.2) htake
        cases hstep
        exact h.quiet (.setCall hrelay.symm fun _ => by rw [hphase]; rfl)
      next => cases hstep
  | push k ok =>
      obtain ⟨c, -, hstep⟩ := Option.bind_eq_some_iff.mp hstep
      split at hstep
      next dest hphase =>
        have hbuffered : ∀ j, (s.callPhase j).hasBuffered = true ∨ j ≠ k := by
          intro j
          by_cases hj : j = k
          · exact .inl (by rw [hj, hphase]; rfl)
          · exact .inr hj
        split_ifs at hstep <;> cases hstep
        · refine h.quiet ⟨rfl, rfl, rfl, fun j hj => ?_⟩
          obtain hj' | hjk := hbuffered j
          · exact hj'
          · rwa [setCall_callPhase, if_neg hjk] at hj
        · exact h.quiet (.setCall rfl fun _ => by rw [hphase]; rfl)
      next => cases hstep
  | finish k =>
      simp only [Server.step?, Server.finish?] at hstep
      split at hstep
      next hphase =>
        cases hstep
        exact h.quiet (.setCall rfl fun _ => by rw [hphase]; rfl)
      next => cases hstep
  | get id drained now =>
      cases hstep
      exact h.quiet (.get hfresh drained)
  | wake p now =>
      obtain ⟨id, hp, hstep⟩ := Option.bind_eq_some_iff.mp hstep
      obtain ⟨-, hstep⟩ := guard_bind_eq_some.mp hstep
      rw [peekResolved_of_fresh (by simpa [withinTtl, hp] using hfresh)] at hstep
      split at hstep
      next hpeek =>
        obtain ⟨-, rfl⟩ := Prod.mk.inj hpeek
        cases hstep
        exact h.quiet (.setPoll rfl)
      next hpeek =>
        obtain ⟨-, rfl⟩ := Prod.mk.inj hpeek
        cases hstep
        exact h.quiet (.setPoll rfl)
  | probe p answers =>
      simp only [Server.step?, Server.probe?] at hstep
      split at hstep
      · cases hstep
        exact h.quiet (.setPoll rfl)
      · cases hstep
        exact h.quiet (.setPoll rfl)
      · cases hstep
  | recheck p drained now =>
      obtain ⟨id, hp, hstep⟩ := Option.bind_eq_some_iff.mp hstep
      rw [peekResolved_of_fresh (by simpa [withinTtl, hp] using hfresh)] at hstep
      split at hstep
      next hpeek =>
        obtain ⟨-, rfl⟩ := Prod.mk.inj hpeek
        cases hstep
        exact h.quiet (.setPoll rfl)
      next hpeek =>
        obtain ⟨-, rfl⟩ := Prod.mk.inj hpeek
        split_ifs at hstep <;> cases hstep <;> exact h.quiet (.setPoll rfl)
      next hpeek =>
        obtain ⟨-, rfl⟩ := Prod.mk.inj hpeek
        cases hstep
        exact h.quiet (.setPoll (offerAck_resolved ..))
      next => cases hstep
  | write p ok =>
      simp only [Server.step?, Server.write?] at hstep
      split at hstep
      · cases hstep
        exact h.quiet (.setPoll rfl)
      · cases hstep
  | report p =>
      obtain ⟨id, -, hstep⟩ := Option.bind_eq_some_iff.mp hstep
      split at hstep
      · cases hstep
        exact h.quiet (.setPoll (offerAck_resolved ..))
      · cases hstep
  | hangUp p =>
      cases hstep
      exact h.quiet ⟨rfl, rfl, rfl, fun _ hj => hj⟩
  | receive text fromSession now =>
      cases hstep
      obtain ⟨origins, originsOrder, hreceive⟩ := s.receive_eq text fromSession now
      rw [hreceive]
      exact h.quiet ⟨rfl, rfl, rfl, fun _ hj => hj⟩

/-! ### What a call reports -/

theorem ok_boot (own : SessionId) (seed : Nat) : (boot own seed).Ok where
  window := nofun
  unique := nofun
  marked := nofun
  waiter := nofun
  held := nofun
  acked := nofun
  outcome := nofun

theorem logged_boot (own : SessionId) (seed : Nat) : (boot own seed).Logged := ⟨nofun, nofun, nofun⟩

/-- In a run in which no call goes on while the window of its id is open, a call reports a
delivery only if its text was written to a live client or posted; and a poll that comes
after the call has returned is answered with the text of the call or of a later one. -/
theorem deliverReply_of_serialized {own : SessionId} {seed : Nat} {steps : List Step}
    (hcond : Meets step? withinTtlSerialized (boot own seed) steps = true)
    (hrun : run? (boot own seed) steps = some s) {k : Nat} {c : Call} (hc : s.calls[k]? = some c)
    {outcome : DeliveryOutcome} (hreturned : s.callPhase k = .returned outcome) :
    (outcome.isError = false → s.Written c.id c.text ∨ s.Posted k c) ∧
      ∀ drained now s', s.withinTtl (.get c.id drained now) = true →
        s.step? (.get c.id drained now) = some s' →
          ∃ text, s'.pollPhase s.polls.length = .answering text ∧ s.FromOrAfter k c text := by
  have hok : s.Ok := Meets.invariant (fun h hcond hstep => h.step? hcond hstep)
    (ok_boot own seed) hcond hrun
  have hlogged : s.Logged := Meets.invariant
    (fun h hcond hstep => h.step? (Bool.and_eq_true_iff.mp hcond).1 hstep)
    (logged_boot own seed) hcond hrun
  refine ⟨hok.outcome k c outcome hc (by rw [hreturned]; rfl), ?_⟩
  intro drained now s' hfresh hstep
  cases hstep
  have hmem := hlogged.mem k c hc (by rw [hreturned]; rfl)
  obtain ⟨entry, hentry, hlog⟩ := hlogged.newest k c hmem hc
  exact ⟨entry.text, get_of_resolved hfresh hentry drained, hlog⟩

def pollThenReply : List Step :=
  [.get ['x'] false 0, .deliver ⟨['x'], ['a']⟩, .enter 0 1, .lookup 0 none, .wake 0 2,
    .probe 0 true, .write 0 true, .report 0, .takeAck 0, .finish 0]

theorem deliverReply_pollThenReply : ∃ s, run? (boot ['s'] 0) pollThenReply = some s ∧
    s.Written ['x'] ['a'] ∧ ∃ s', s.step? (.get ['x'] false 3) = some s' ∧
      ∃ text, s'.pollPhase 1 = .answering text := by
  obtain ⟨s, hrun⟩ : ∃ s, run? (boot ['s'] 0) pollThenReply = some s := ⟨_, rfl⟩
  have hcall : s.calls[0]? = some ⟨['x'], ['a']⟩ ∧
      s.callPhase 0 = .returned .longPollResolved ∧ s.posts = [] ∧ s.polls.length = 1 ∧
      s.withinTtl (.get ['x'] false 3) = true := by
    cases hrun
    exact ⟨rfl, rfl, rfl, rfl, rfl⟩
  obtain ⟨hc, hreturned, hposts, hpolls, hfresh⟩ := hcall
  obtain ⟨hreport, hlater⟩ := deliverReply_of_serialized (by decide) hrun hc hreturned
  obtain ⟨text, htext, -⟩ := hlater false 3 _ hfresh rfl
  refine ⟨s, hrun, ?_, _, rfl, text, hpolls ▸ htext⟩
  obtain hwritten | ⟨dest, hdest⟩ := hreport rfl
  · exact hwritten
  · rw [hposts] at hdest
    cases hdest

/-- The wait of a second reply expires while the window of the first is open. -/
def expiredWait : List Step :=
  [.get ['x'] false 0, .deliver ⟨['x'], ['a']⟩, .enter 0 1, .lookup 0 none,
    .deliver ⟨['x'], ['b']⟩, .enter 1 2, .expire 1 3, .wake 0 4, .probe 0 true, .write 0 true,
    .report 0, .takeAck 0, .finish 0]

/-- The second text takes the place of the first, and the poll that writes it acks the first
call. -/
theorem expiredWait_not_written : ∃ s, run? (boot ['s'] 0) expiredWait = some s ∧
    Meets step? withinTtl (boot ['s'] 0) expiredWait = true ∧
    s.calls[0]? = some ⟨['x'], ['a']⟩ ∧ s.callPhase 0 = .returned .longPollResolved ∧
    ¬s.Written ['x'] ['a'] ∧ ¬s.Posted 0 ⟨['x'], ['a']⟩ := by
  refine ⟨_, rfl, by decide, rfl, rfl, ?_, ?_⟩
  · rintro ⟨p, hp, htext⟩
    match p with
    | 0 => exact absurd htext (by decide)
    | p + 1 => cases hp
  · rintro ⟨dest, hdest⟩
    cases hdest

end Server

end QuorumDispatch.Relay
