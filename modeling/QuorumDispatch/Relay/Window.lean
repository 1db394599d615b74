import QuorumDispatch.Relay.Delivery

/-!
The verify window of an id. In a run in which no call goes on while the window of its id is
open, a window is about the text in the buffer, and a poll acks that text or none.
-/

namespace QuorumDispatch.Relay

open Lib

namespace Server

def Current (s : Server) (id : MessageId) (text : Text) : Prop :=
  ∃ entry, s.relay.resolved id = some entry ∧ (s.relay.verifyOpen id = true → entry.text = text)

/-- An id has at most one window, which is about the text in the buffer; once that is there
no poll registers, and a waiter is registered in the window only; a poll with a text of its
own has removed the waiter; and what is acked was written. -/
structure Ok (s : Server) : Prop where
  window : ∀ k c, s.calls[k]? = some c → (s.callPhase k).inWindow = true →
    s.relay.verifyOpen c.id = true ∧ s.Current c.id c.text
  unique : ∀ k k' c c', s.calls[k]? = some c → s.calls[k']? = some c' → c.id = c'.id →
    (s.callPhase k).inWindow = true → (s.callPhase k').inWindow = true → k = k'
  marked : ∀ id, s.relay.verifyOpen id = true → ∃ entry, s.relay.resolved id = some entry
  waiter : ∀ id, s.relay.hasWaiter id = true → s.relay.resolved id ≠ none →
    s.relay.verifyOpen id = true
  held : ∀ p id text, s.polls[p]? = some id → (s.pollPhase p).heldText = some text →
    s.relay.hasWaiter id = false ∧ s.Current id text
  acked : ∀ id written, s.relay.acks id = some written →
    s.relay.verifyOpen id = true ∧ s.relay.hasWaiter id = false ∧
      (written = true → ∀ entry, s.relay.resolved id = some entry → s.Written id entry.text)
  outcome : ∀ k c outcome, s.calls[k]? = some c → (s.callPhase k).outcome = some outcome →
    outcome.isError = false → s.Written c.id c.text ∨ s.Posted k c

variable {s s' : Server}

/-! ### What the steps are made of -/

theorem Ok.setCall (h : s.Ok) {k : Nat} {phase : CallPhase}
    (hwindow : phase.inWindow = true → (s.callPhase k).inWindow = true)
    (houtcome : ∀ c outcome, s.calls[k]? = some c → phase.outcome = some outcome →
      outcome.isError = false → s.Written c.id c.text ∨ s.Posted k c) : (s.setCall k phase).Ok := by
  have hsame : ∀ j, ((s.setCall k phase).callPhase j).inWindow = true →
      (s.callPhase j).inWindow = true := by
    intro j hj
    rw [setCall_callPhase] at hj
    split_ifs at hj with hjk
    · exact hjk ▸ hwindow hj
    · exact hj
  exact
    { window := fun j c hc hj => h.window j c hc (hsame j hj)
      unique := fun j j' c c' hc hc' hid hj hj' =>
        h.unique j j' c c' hc hc' hid (hsame j hj) (hsame j' hj')
      marked := h.marked
      waiter := h.waiter
      held := h.held
      acked := h.acked
      outcome := by
        intro j c outcome hc hj herror
        rw [setCall_callPhase] at hj
        split_ifs at hj with hjk
        · subst hjk
          exact houtcome c outcome hc hj herror
        · exact h.outcome j c outcome hc hj herror }

theorem Ok.setPoll (h : s.Ok) {p : Nat} {phase : PollPhase}
    (hwritten : ∀ text, (s.pollPhase p).writtenText = some text → phase.writtenText = some text)
    (hheld : ∀ id text, s.polls[p]? = some id → phase.heldText = some text →
      s.relay.hasWaiter id = false ∧ s.Current id text) : (s.setPoll p phase).Ok where
  window := h.window
  unique := h.unique
  marked := h.marked
  waiter := h.waiter
  held := by
    intro q id text hq htext
    rw [setPoll_pollPhase] at htext
    split_ifs at htext with hqp
    · exact hheld id text (hqp ▸ hq) htext
    · exact h.held q id text hq htext
  acked id written hack := by
    obtain ⟨hopen, hwaiter, htext⟩ := h.acked id written hack
    exact ⟨hopen, hwaiter, fun hw entry hentry => (htext hw entry hentry).setPoll hwritten⟩
  outcome k c outcome hc hk herror :=
    (h.outcome k c outcome hc hk herror).imp_left (·.setPoll hwritten)

theorem Ok.removeWaiter (h : s.Ok) (id : MessageId) :
    (s.setRelay (s.relay.removeWaiter id)).Ok where
  window := h.window
  unique := h.unique
  marked := h.marked
  waiter id' hid' hresolved := by
    rw [setRelay, RelayState.removeWaiter_hasWaiter] at hid'
    split_ifs at hid'
    exact h.waiter id' hid' hresolved
  held p id' text hp htext := by
    obtain ⟨hwaiter, hcurrent⟩ := h.held p id' text hp htext
    refine ⟨?_, hcurrent⟩
    rw [setRelay, RelayState.removeWaiter_hasWaiter]
    split_ifs
    · rfl
    · exact hwaiter
  acked id' written hack := by
    obtain ⟨hopen, hwaiter, htext⟩ := h.acked id' written hack
    refine ⟨hopen, ?_, htext⟩
    rw [setRelay, RelayState.removeWaiter_hasWaiter]
    split_ifs
    · rfl
    · exact hwaiter
  outcome := h.outcome

theorem Ok.offerAck (h : s.Ok) {id : MessageId} {written : Bool}
    (hoffer : s.relay.verifyOpen id = true → s.relay.hasWaiter id = false ∧
      (written = true → ∀ entry, s.relay.resolved id = some entry → s.Written id entry.text)) :
    (s.setRelay (s.relay.offerAck id written)).Ok := by
  unfold RelayState.offerAck
  split_ifs with hopen
  · refine
      { window := h.window
        unique := h.unique
        marked := h.marked
        waiter := h.waiter
        held := h.held
        acked := ?_
        outcome := h.outcome }
    intro id' written' hack
    by_cases hid : id' = id
    · subst hid
      have hw : written' = written := by simpa [setRelay, eq_comm] using hack
      subst hw
      exact ⟨hopen, hoffer hopen⟩
    · exact h.acked id' written' (by simpa [setRelay, hid] using hack)
  · exact h

theorem Ok.close (h : s.Ok) {k : Nat} {c : Call} (hc : s.calls[k]? = some c)
    (hk : (s.callPhase k).inWindow = true) (hwaiter : s.relay.hasWaiter c.id = false)
    {phase : CallPhase} (hphase : phase.inWindow = false)
    (houtcome : ∀ outcome, phase.outcome = some outcome → outcome.isError = false →
      s.Written c.id c.text) :
    ((s.setRelay (s.relay.unmarkVerify c.id)).setCall k phase).Ok := by
  have hfewer : ∀ id, (s.relay.unmarkVerify c.id).verifyOpen id = true →
      id ≠ c.id ∧ s.relay.verifyOpen id = true := by
    intro id hid
    rw [RelayState.unmarkVerify_verifyOpen] at hid
    split_ifs at hid with hne
    exact ⟨hne, hid⟩
  have hkeep : ∀ id, id ≠ c.id → s.relay.verifyOpen id = true →
      (s.relay.unmarkVerify c.id).verifyOpen id = true := by
    intro id hne hid
    rw [RelayState.unmarkVerify_verifyOpen, if_neg hne, hid]
  have hcurrent : ∀ {id text}, s.Current id text →
      ((s.setRelay (s.relay.unmarkVerify c.id)).setCall k phase).Current id text := by
    rintro id text ⟨entry, hentry, htext⟩
    exact ⟨entry, hentry, fun hopen => htext (hfewer id hopen).2⟩
  have hother : ∀ j, (((s.setRelay (s.relay.unmarkVerify c.id)).setCall k phase).callPhase
      j).inWindow = true → j ≠ k ∧ (s.callPhase j).inWindow = true := by
    intro j hj
    rw [setCall_callPhase] at hj
    split_ifs at hj with hjk
    · rw [hphase] at hj
      cases hj
    · exact ⟨hjk, hj⟩
  exact
    { window := by
        intro j cj hcj hj
        obtain ⟨hjk, hj⟩ := hother j hj
        have hne : cj.id ≠ c.id := fun hid => hjk (h.unique j k cj c hcj hc hid hj hk)
        exact ⟨hkeep _ hne (h.window j cj hcj hj).1, hcurrent (h.window j cj hcj hj).2⟩
      unique := fun j j' cj cj' hcj hcj' hid hj hj' =>
        h.unique j j' cj cj' hcj hcj' hid (hother j hj).2 (hother j' hj').2
      marked := fun id hid => h.marked id (hfewer id hid).2
      waiter := by
        intro id hid hresolved
        refine hkeep id ?_ (h.waiter id hid hresolved)
        rintro rfl
        exact Bool.eq_false_iff.mp hwaiter hid
      held := fun p id text hp htext => (h.held p id text hp htext).imp_right hcurrent
      acked := by
        intro id written hack
        have hack : (s.relay.unmarkVerify c.id).acks id = some written := hack
        rw [RelayState.unmarkVerify_acks] at hack
        split_ifs at hack with hne
        obtain ⟨hopen, hwaiter, htext⟩ := h.acked id written hack
        exact ⟨hkeep id hne hopen, hwaiter, htext⟩
      outcome := by
        intro j cj outcome hcj hj herror
        rw [setCall_callPhase] at hj
        split_ifs at hj with hjk
        · subst hjk
          cases hcj.symm.trans hc
          exact .inl (houtcome outcome hj herror)
        · exact h.outcome j cj outcome hcj hj herror }

/-- A call buffers its text while no window of the id is open: no poll has a text of its own
then unless the waiter is gone, and the call opens no window. -/
theorem Ok.enterSpan (h : s.Ok) {k : Nat} {c : Call} (hc : s.calls[k]? = some c)
    (hclosed : s.relay.verifyOpen c.id = false) (now : Nat) : (s.enterSpan k c now).Ok := by
  have hopen : ∀ {id}, id ≠ c.id →
      (s.enterSpan k c now).relay.verifyOpen id = s.relay.verifyOpen id := by
    intro id hne
    rw [enterSpan_verifyOpen, if_neg fun hid => hne hid.1]
  have hresolved : ∀ {id}, id ≠ c.id →
      (s.enterSpan k c now).relay.resolved id = s.relay.resolved id := by
    intro id hne
    rw [enterSpan_resolved, if_neg hne]
  have hcurrent : ∀ {id text}, id ≠ c.id → s.Current id text →
      (s.enterSpan k c now).Current id text := by
    rintro id text hne ⟨entry, hentry, htext⟩
    exact ⟨entry, (hresolved hne).trans hentry, fun ho => htext ((hopen hne).symm.trans ho)⟩
  have hself : ∃ entry, (s.enterSpan k c now).relay.resolved c.id = some entry ∧
      entry.text = c.text := ⟨_, (enterSpan_resolved ..).trans (if_pos rfl), rfl⟩
  have hnew : ((s.enterSpan k c now).callPhase k).inWindow = s.relay.hasWaiter c.id := by
    unfold Server.enterSpan
    rw [setCall_callPhase, if_pos rfl]
    rfl
  -- The calls that have a window are about other ids.
  have hother : ∀ j cj, s.calls[j]? = some cj → j ≠ k →
      ((s.enterSpan k c now).callPhase j).inWindow = true →
      cj.id ≠ c.id ∧ (s.callPhase j).inWindow = true := by
    intro j cj hcj hjk hj
    rw [enterSpan_callPhase s hjk] at hj
    refine ⟨fun hid => ?_, hj⟩
    have hjopen := (h.window j cj hcj hj).1
    rw [hid, hclosed] at hjopen
    cases hjopen
  exact
    { window := by
        intro j cj hcj hj
        by_cases hjk : j = k
        · subst hjk
          cases hcj.symm.trans hc
          obtain ⟨entry, hentry, htext⟩ := hself
          refine ⟨?_, entry, hentry, fun _ => htext⟩
          rw [hnew] at hj
          rw [enterSpan_verifyOpen, if_pos ⟨rfl, hj⟩]
        · obtain ⟨hne, hj⟩ := hother j cj hcj hjk hj
          obtain ⟨hjopen, hjcurrent⟩ := h.window j cj hcj hj
          exact ⟨(hopen hne).trans hjopen, hcurrent hne hjcurrent⟩
      unique := by
        intro j j' cj cj' hcj hcj' hid hj hj'
        by_cases hjk : j = k
        · by_cases hjk' : j' = k
          · rw [hjk, hjk']
          · subst hjk
            cases hcj.symm.trans hc
            exact absurd hid.symm (hother j' cj' hcj' hjk' hj').1
        · obtain ⟨hne, hj⟩ := hother j cj hcj hjk hj
          by_cases hjk' : j' = k
          · subst hjk'
            cases hcj'.symm.trans hc
            exact absurd hid hne
          · exact h.unique j j' cj cj' hcj hcj' hid hj (hother j' cj' hcj' hjk' hj').2
      marked := by
        intro id hid
        by_cases hne : id = c.id
        · obtain ⟨entry, hentry, -⟩ := hself
          exact ⟨entry, hne ▸ hentry⟩
        · rw [hresolved hne]
          exact h.marked id ((hopen hne).symm.trans hid)
      waiter := by
        intro id hid hsome
        rw [enterSpan_hasWaiter] at hid
        by_cases hne : id = c.id
        · rw [enterSpan_verifyOpen, if_pos ⟨hne, hne ▸ hid⟩]
        · rw [hresolved hne] at hsome
          exact (hopen hne).trans (h.waiter id hid hsome)
      held := by
        intro p id text hp htext
        obtain ⟨hwaiter, hheld⟩ := h.held p id text hp htext
        refine ⟨(enterSpan_hasWaiter ..).trans hwaiter, ?_⟩
        by_cases hne : id = c.id
        · subst hne
          obtain ⟨entry, hentry, -⟩ := hself
          refine ⟨entry, hentry, fun ho => ?_⟩
          rw [enterSpan_verifyOpen, hwaiter, hclosed] at ho
          simp at ho
        · exact hcurrent hne hheld
      acked := by
        intro id written hack
        rw [enterSpan_acks] at hack
        obtain ⟨hiopen, hwaiter, htext⟩ := h.acked id written hack
        have hne : id ≠ c.id := by
          rintro rfl
          rw [hclosed] at hiopen
          cases hiopen
        refine ⟨(hopen hne).trans hiopen, (enterSpan_hasWaiter ..).trans hwaiter, ?_⟩
        intro hw entry hentry
        exact htext hw entry ((hresolved hne).symm.trans hentry)
      outcome := by
        intro j cj outcome hcj hj herror
        by_cases hjk : j = k
        · subst hjk
          unfold Server.enterSpan at hj
          rw [setCall_callPhase, if_pos rfl] at hj
          cases hj
        · rw [enterSpan_callPhase s hjk] at hj
          exact h.outcome j cj outcome hcj hj herror }

/-- A poll registers: there is no text for its id, and so no window and no ack. -/
theorem Ok.registerWaiter (h : s.Ok) {id : MessageId} (hnone : s.relay.resolved id = none) :
    (s.setRelay (s.relay.registerWaiter id)).Ok where
  window := h.window
  unique := h.unique
  marked := h.marked
  waiter id' hid' hresolved := by
    rw [setRelay, RelayState.registerWaiter_hasWaiter] at hid'
    split_ifs at hid' with hid
    · exact absurd (hid ▸ hnone) hresolved
    · exact h.waiter id' hid' hresolved
  held p id' text hp htext := by
    obtain ⟨hwaiter, entry, hentry, hcurrent⟩ := h.held p id' text hp htext
    refine ⟨?_, entry, hentry, hcurrent⟩
    rw [setRelay, RelayState.registerWaiter_hasWaiter, if_neg, hwaiter]
    rintro rfl
    exact Option.some_ne_none entry (hentry.symm.trans hnone)
  acked id' written hack := by
    obtain ⟨hopen, hwaiter, htext⟩ := h.acked id' written hack
    obtain ⟨entry, hentry⟩ := h.marked id' hopen
    refine ⟨hopen, ?_, htext⟩
    rw [setRelay, RelayState.registerWaiter_hasWaiter, if_neg, hwaiter]
    rintro rfl
    exact Option.some_ne_none entry (hentry.symm.trans hnone)
  outcome := h.outcome

theorem Ok.addPoll (h : s.Ok) (id : MessageId) {phase : PollPhase} (hphase : phase.heldText = none) :
    ({ s with polls := s.polls ++ [id] }.setPoll s.polls.length phase).Ok where
  window := h.window
  unique := h.unique
  marked := h.marked
  waiter := h.waiter
  held := by
    intro q id' text hq htext
    rw [setPoll_pollPhase] at htext
    split_ifs at htext with hlast
    · rw [hphase] at htext
      cases htext
    · exact h.held q id' text (getElem?_of_snoc hq hlast) htext
  acked id' written hack := by
    obtain ⟨hopen, hwaiter, htext⟩ := h.acked id' written hack
    exact ⟨hopen, hwaiter, fun hw entry hentry => (htext hw entry hentry).addPoll⟩
  outcome k c outcome hc hk herror :=
    (h.outcome k c outcome hc hk herror).imp_left (·.addPoll)

theorem Ok.addCall (h : s.Ok) (c : Call) :
    ({ s with calls := s.calls ++ [c] }.setCall s.calls.length .entering).Ok := by
  have hold : ∀ {k ck}, (s.calls ++ [c])[k]? = some ck → k ≠ s.calls.length →
      s.calls[k]? = some ck := fun hck hk => getElem?_of_snoc hck hk
  have hphase : ∀ k, k ≠ s.calls.length →
      ({ s with calls := s.calls ++ [c] }.setCall s.calls.length .entering).callPhase k =
        s.callPhase k := by
    intro k hk
    rw [setCall_callPhase, if_neg hk]
  have hwindow : ∀ k, (({ s with calls := s.calls ++ [c] }.setCall s.calls.length
      .entering).callPhase k).inWindow = true → k ≠ s.calls.length := by
    rintro k hk rfl
    rw [setCall_callPhase, if_pos rfl] at hk
    cases hk
  exact
    { window := by
        intro k ck hck hk
        have hne := hwindow k hk
        rw [hphase k hne] at hk
        exact h.window k ck (hold hck hne) hk
      unique := by
        intro k k' ck ck' hck hck' hid hk hk'
        have hne := hwindow k hk
        have hne' := hwindow k' hk'
        rw [hphase k hne] at hk
        rw [hphase k' hne'] at hk'
        exact h.unique k k' ck ck' (hold hck hne) (hold hck' hne') hid hk hk'
      marked := h.marked
      waiter := h.waiter
      held := h.held
      acked := h.acked
      outcome := by
        intro k ck outcome hck hk herror
        by_cases hne : k = s.calls.length
        · rw [setCall_callPhase, if_pos hne] at hk
          cases hk
        · rw [hphase k hne] at hk
          exact h.outcome k ck outcome (hold hck hne) hk herror }

/-! ### Calls step by step -/

theorem act_inWindow {origin : Option OriginRec} {decision : DeliveryDecision}
    (h : (act origin decision).inWindow = true) : decision = .resolveWaiter := by
  cases decision <;> first | rfl | cases h

theorem act_outcome {origin : Option OriginRec} {decision : DeliveryDecision}
    {outcome : DeliveryOutcome} (h : (act origin decision).outcome = some outcome) :
    outcome.isError = true := by
  cases decision <;> cases h <;> rfl

theorem redecide_inWindow (s : Server) (origin : Option OriginRec) :
    (s.redecide origin).inWindow = false := by
  refine Bool.eq_false_iff.mpr fun h => ?_
  have := eq_true_of_decideDelivery (act_inWindow h)
  cases this

theorem redecide_outcome {origin : Option OriginRec} {outcome : DeliveryOutcome}
    (h : (s.redecide origin).outcome = some outcome) : outcome.isError = true := act_outcome h

theorem Ok.enter? (h : s.Ok) {k now : Nat} (hstep : s.enter? k now = some s') : s'.Ok := by
  obtain ⟨c, hc, hstep⟩ := Option.bind_eq_some_iff.mp hstep
  obtain ⟨-, hstep⟩ := guard_bind_eq_some.mp hstep
  cases hstep
  split_ifs with hopen
  · exact h.setCall nofun nofun
  · exact h.enterSpan hc (by simpa using hopen) now

theorem Ok.resume? (h : s.Ok) {k now : Nat} (hstep : s.resume? k now = some s') : s'.Ok := by
  obtain ⟨c, hc, hstep⟩ := Option.bind_eq_some_iff.mp hstep
  obtain ⟨hguard, hstep⟩ := guard_bind_eq_some.mp hstep
  cases hstep
  exact h.enterSpan hc hguard.2 now

theorem Ok.expire? (h : s.Ok) {k now : Nat} (hserialized : s.serialized (.expire k now) = true)
    (hstep : s.expire? k now = some s') : s'.Ok := by
  obtain ⟨c, hc, hstep⟩ := Option.bind_eq_some_iff.mp hstep
  obtain ⟨-, hstep⟩ := guard_bind_eq_some.mp hstep
  cases hstep
  have hclosed : s.relay.verifyOpen c.id = false := by simpa [serialized, hc] using hserialized
  exact h.enterSpan hc hclosed now

theorem Ok.lookup? (h : s.Ok) {k : Nat} {data : Option InboxRecord}
    (hstep : s.lookup? k data = some s') : s'.Ok := by
  unfold Server.lookup? at hstep
  split at hstep
  next waiterPresent inMem hphase =>
    cases hstep
    refine h.setCall (fun hwindow => ?_) fun c outcome _ houtcome herror => ?_
    · rw [hphase]
      exact eq_true_of_decideDelivery (act_inWindow hwindow)
    · rw [act_outcome houtcome] at herror
      cases herror
  next => cases hstep

theorem Ok.takeAck? (h : s.Ok) {k : Nat} (hstep : s.takeAck? k = some s') : s'.Ok := by
  obtain ⟨c, hc, hstep⟩ := Option.bind_eq_some_iff.mp hstep
  split at hstep
  next origin written relay hphase htake =>
    have hack : s.relay.acks c.id = some written := congrArg Prod.fst htake
    have hrelay : relay.unmarkVerify c.id = s.relay.unmarkVerify c.id := by
      rw [← RelayState.unmarkVerify_takeAck s.relay, htake]
    have hin : (s.callPhase k).inWindow = true := by rw [hphase]; rfl
    obtain ⟨-, hwaiter, hwritten⟩ := h.acked c.id written hack
    rw [hrelay] at hstep
    split_ifs at hstep with hw
    · cases hstep
      refine h.close hc hin hwaiter rfl fun outcome _ _ => ?_
      obtain ⟨hopen, entry, hentry, htext⟩ := h.window k c hc hin
      rw [← htext hopen]
      exact hwritten hw entry hentry
    · cases hstep
      refine (h.removeWaiter c.id).close hc hin ?_ (s.redecide_inWindow origin) ?_
      · rw [setRelay, RelayState.removeWaiter_hasWaiter, if_pos rfl]
      · intro outcome houtcome herror
        rw [redecide_outcome houtcome] at herror
        cases herror
  next => cases hstep

theorem Ok.ackExpire? (h : s.Ok) {k : Nat} (hstep : s.ackExpire? k = some s') : s'.Ok := by
  obtain ⟨c, hc, hstep⟩ := Option.bind_eq_some_iff.mp hstep
  split at hstep
  next origin relay hphase htake =>
    have hrelay : relay.unmarkVerify c.id = s.relay.unmarkVerify c.id := by
      rw [← RelayState.unmarkVerify_takeAck s.relay, htake]
    have hin : (s.callPhase k).inWindow = true := by rw [hphase]; rfl
    rw [hrelay] at hstep
    cases hstep
    refine (h.removeWaiter c.id).close hc hin ?_ (s.redecide_inWindow origin) ?_
    · rw [setRelay, RelayState.removeWaiter_hasWaiter, if_pos rfl]
    · intro outcome houtcome herror
      rw [redecide_outcome houtcome] at herror
      cases herror
  next => cases hstep

theorem Ok.push? (h : s.Ok) {k : Nat} {ok : Bool} (hstep : s.push? k ok = some s') : s'.Ok := by
  obtain ⟨c, hc, hstep⟩ := Option.bind_eq_some_iff.mp hstep
  split at hstep
  next dest hphase =>
    split_ifs at hstep
    · cases hstep
      have hposts : Ok { s with posts := s.posts ++
          [{ call := k, dest, text := pushedText c.id c.text }] } :=
        { window := h.window
          unique := h.unique
          marked := h.marked
          waiter := h.waiter
          held := h.held
          acked := h.acked
          outcome := fun j cj outcome hcj hj herror =>
            (h.outcome j cj outcome hcj hj herror).imp_right fun ⟨dest, hdest⟩ =>
              ⟨dest, List.mem_append_left _ hdest⟩ }
      refine hposts.setCall nofun fun c' outcome hc' _ _ => .inr ⟨dest, ?_⟩
      cases hc'.symm.trans hc
      exact List.mem_append_right _ (List.mem_singleton_self _)
    · cases hstep
      refine h.setCall nofun fun _ outcome _ houtcome herror => ?_
      cases houtcome
      cases herror
  next => cases hstep

theorem Ok.finish? (h : s.Ok) {k : Nat} (hstep : s.finish? k = some s') : s'.Ok := by
  unfold Server.finish? at hstep
  split at hstep
  next outcome hphase =>
    cases hstep
    refine h.setCall nofun fun c outcome' hc houtcome herror => ?_
    exact h.outcome k c outcome' hc (by rw [hphase]; exact houtcome) herror
  next => cases hstep

/-! ### Polls step by step -/

theorem Ok.get (h : s.Ok) {id : MessageId} {now : Nat} (hfresh : s.fresh id now = true)
    (drained : Bool) : (s.get id drained now).Ok := by
  unfold Server.get
  dsimp only
  rw [peekResolved_of_fresh hfresh]
  cases hentry : s.relay.resolved id with
  | some entry => exact h.addPoll id rfl
  | none =>
      dsimp only [Option.map_none]
      have hregistered := h.registerWaiter hentry
      split_ifs
      · exact (hregistered.removeWaiter id).addPoll id rfl
      · exact hregistered.addPoll id rfl

theorem Ok.hold (h : s.Ok) {p : Nat} {id : MessageId} (hp : s.polls[p]? = some id)
    {entry : ResolvedEntry} (hentry : s.relay.resolved id = some entry)
    (hunwritten : (s.pollPhase p).writtenText = none) :
    ((s.setRelay (s.relay.removeWaiter id)).setPoll p (.holding entry.text)).Ok := by
  refine (h.removeWaiter id).setPoll (fun text htext => ?_) fun id' text hp' htext => ?_
  · rw [setRelay, hunwritten] at htext
    cases htext
  · cases hp'.symm.trans hp
    cases htext
    refine ⟨?_, entry, hentry, fun _ => rfl⟩
    rw [setRelay, RelayState.removeWaiter_hasWaiter, if_pos rfl]

theorem Ok.wake? (h : s.Ok) {p now : Nat} (hfresh : s.withinTtl (.wake p now) = true)
    (hstep : s.wake? p now = some s') : s'.Ok := by
  obtain ⟨id, hp, hstep⟩ := Option.bind_eq_some_iff.mp hstep
  obtain ⟨hphase, hstep⟩ := guard_bind_eq_some.mp hstep
  rw [peekResolved_of_fresh (by simpa [withinTtl, hp] using hfresh)] at hstep
  cases hentry : s.relay.resolved id with
  | some entry =>
      rw [hentry] at hstep
      cases hstep
      exact h.hold hp hentry (by rw [hphase]; rfl)
  | none =>
      rw [hentry] at hstep
      cases hstep
      refine h.setPoll (fun text htext => ?_) nofun
      rw [hphase] at htext
      cases htext

theorem Ok.probe? (h : s.Ok) {p : Nat} {answers : Bool} (hstep : s.probe? p answers = some s') :
    s'.Ok := by
  unfold Server.probe? at hstep
  split at hstep
  next hphase =>
    cases hstep
    refine h.setPoll (fun text htext => ?_) nofun
    rw [hphase] at htext
    cases htext
  next text hphase =>
    cases hstep
    refine h.setPoll (fun text' htext => ?_) fun id text' hp htext => ?_
    · rw [hphase] at htext
      cases htext
    · refine h.held p id text' hp ?_
      rw [hphase, ← htext]
      split_ifs <;> rfl
  next => cases hstep

/-- The nack of a poll that finds its client gone is dropped: while a window is open there is
a text to be found. -/
theorem offerAck_of_resolved_eq_none (h : s.Ok) {id : MessageId}
    (hnone : s.relay.resolved id = none) (written : Bool) :
    s.relay.offerAck id written = s.relay := by
  unfold RelayState.offerAck
  split_ifs with hopen
  · obtain ⟨entry, hentry⟩ := h.marked id hopen
    rw [hnone] at hentry
    cases hentry
  · rfl

theorem Ok.recheck? (h : s.Ok) {p now : Nat} {drained : Bool}
    (hfresh : s.withinTtl (.recheck p drained now) = true)
    (hstep : s.recheck? p drained now = some s') : s'.Ok := by
  obtain ⟨id, hp, hstep⟩ := Option.bind_eq_some_iff.mp hstep
  rw [peekResolved_of_fresh (by simpa [withinTtl, hp] using hfresh)] at hstep
  have hunwritten : ∀ {alive}, s.pollPhase p = .probed alive →
      (s.pollPhase p).writtenText = none := fun hphase => by rw [hphase]; rfl
  cases hentry : s.relay.resolved id with
  | some entry =>
      rw [hentry] at hstep
      split at hstep
      next hphase hpeek =>
        cases hpeek
        cases hstep
        exact h.hold hp hentry (hunwritten hphase)
      next hpeek => cases hpeek
      next hpeek => cases hpeek
      next => cases hstep
  | none =>
      rw [hentry] at hstep
      split at hstep
      next hpeek => cases hpeek
      next hphase hpeek =>
        cases hpeek
        have hkept : ∀ {phase : PollPhase} text, (s.pollPhase p).writtenText = some text →
            phase.writtenText = some text := by
          intro phase text htext
          rw [hunwritten hphase] at htext
          cases htext
        split_ifs at hstep
        · cases hstep
          exact (h.removeWaiter id).setPoll hkept nofun
        · cases hstep
          exact h.setPoll hkept nofun
      next hphase hpeek =>
        cases hpeek
        cases hstep
        have hoffer := offerAck_of_resolved_eq_none (h.removeWaiter id) hentry false
        refine Ok.setPoll ?_ (fun text htext => ?_) nofun
        · exact hoffer ▸ h.removeWaiter id
        · rw [setRelay, hunwritten hphase] at htext
          cases htext
      next => cases hstep

theorem Ok.write? (h : s.Ok) {p : Nat} {ok : Bool} (hstep : s.write? p ok = some s') : s'.Ok := by
  unfold Server.write? at hstep
  split at hstep
  next text hphase =>
    cases hstep
    refine h.setPoll (fun text' htext => ?_) fun id text' hp htext => ?_
    · rw [hphase] at htext
      cases htext
    · refine h.held p id text' hp ?_
      rw [hphase, ← htext]
      rfl
  next => cases hstep

/-- What a poll reports is about the text that it wrote, which is the one in the buffer. -/
theorem Ok.report? (h : s.Ok) {p : Nat} (hstep : s.report? p = some s') : s'.Ok := by
  obtain ⟨id, hp, hstep⟩ := Option.bind_eq_some_iff.mp hstep
  split at hstep
  next text written hphase =>
    cases hstep
    obtain ⟨hwaiter, entry, hentry, hcurrent⟩ := h.held p id text hp (by rw [hphase]; rfl)
    have hacked : (s.setRelay (s.relay.offerAck id written)).Ok := h.offerAck fun hopen => by
      refine ⟨hwaiter, fun hw entry' hentry' => ⟨p, hp, ?_⟩⟩
      cases hentry'.symm.trans hentry
      rw [hphase, hcurrent hopen, hw]
      rfl
    refine hacked.setPoll (fun text' htext => ?_) nofun
    rw [setRelay, hphase] at htext
    exact htext
  next => cases hstep

theorem Ok.step? {step : Step} (h : s.Ok) (hcond : s.withinTtlSerialized step = true)
    (hstep : s.step? step = some s') : s'.Ok := by
  obtain ⟨hfresh, hserialized⟩ := Bool.and_eq_true_iff.mp hcond
  cases step with
  | deliver c =>
      cases hstep
      exact h.addCall c
  | enter k now => exact h.enter? hstep
  | resume k now => exact h.resume? hstep
  | expire k now => exact h.expire? hserialized hstep
  | lookup k data => exact h.lookup? hstep
  | takeAck k => exact h.takeAck? hstep
  | ackExpire k => exact h.ackExpire? hstep
  | push k ok => exact h.push? hstep
  | finish k => exact h.finish? hstep
  | get id drained now =>
      cases hstep
      exact h.get hfresh drained
  | wake p now => exact h.wake? hfresh hstep
  | probe p answers => exact h.probe? hstep
  | recheck p drained now => exact h.recheck? hfresh hstep
  | write p ok => exact h.write? hstep
  | report p => exact h.report? hstep
  | hangUp p =>
      cases hstep
      exact ⟨h.window, h.unique, h.marked, h.waiter, h.held, h.acked, h.outcome⟩
  | receive text fromSession now =>
      cases hstep
      obtain ⟨origins, originsOrder, hreceive⟩ := s.receive_eq text fromSession now
      rw [hreceive]
      exact ⟨h.window, h.unique, h.marked, h.waiter, h.held, h.acked, h.outcome⟩

end Server

end QuorumDispatch.Relay
