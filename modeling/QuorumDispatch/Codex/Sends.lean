import Mathlib.Data.List.Nodup
import QuorumDispatch.Codex.Inject
import QuorumDispatch.DeliveryEvents.Daemon
import QuorumDispatch.Lib.Runs

/-!
The sends into one codex thread, one after another. A send is recorded under the id that the
server answered with, which is the id of a new turn, or of the turn that was steered.
-/

namespace QuorumDispatch.Codex

open Lib Provider DeliveryEvents

variable (sha256Hex : Bytes → String)

/-- A thread: the ids of its turns so far, and the log of the sends. -/
structure Thread where
  minted : List String := []
  log : List Payload := []

/-- A send that succeeded, with all that the server and the rollout answered to it. -/
structure Send where
  home : Option String
  message : List Char
  sender : List Char
  expectedTurnId : Option String
  history : History
  turnId : String

inductive Event where
  | turn (id : String)
  | send (s : Send)

def steered? : Exchange Query Answer → Option String
  | ⟨.turnSteer .., reply⟩ => Reply.answered reply
  | _ => none

def started? : Exchange Query Answer → Option String
  | ⟨.turnStart .., reply⟩ => Reply.answered reply
  | _ => none

def mint (minted : List String) (e : Exchange Query Answer) : List String :=
  (started? e).toList ++ minted

/-- The server mints a fresh id for a turn that it starts, and names the turn that a steer
entered. -/
structure Honest (minted : List String) (e : Exchange Query Answer) : Prop where
  fresh : ∀ id, started? e = some id → id ∉ minted
  entered : ∀ id, steered? e = some id → id ∈ minted

namespace Thread

variable (threadId : String)

def step (t : Thread) : Event → Thread
  | .turn id => { t with minted := id :: t.minted }
  | .send s =>
      { minted := s.history.foldl mint t.minted
        log := t.log ++ emitDaemonSendEvents sha256Hex s.home s.message s.turnId "codex" }

/-- Turns that others start have fresh ids, and a send is a run of the ladder that ended well. -/
def Possible (t : Thread) : Event → Prop
  | .turn id => id ∉ t.minted
  | .send s =>
      (inject true s.expectedTurnId threadId s.message s.sender).Returns s.history (.ok s.turnId) ∧
        Along mint Honest t.minted s.history

/-- A send that will be recorded is not steered into a turn that a send is recorded under. -/
def EntersAnew (t : Thread) : Event → Prop
  | .turn _ => True
  | .send s =>
      (s.home.filter (!·.isEmpty)).isSome → ∀ e ∈ s.history, ∀ id, steered? e = some id →
        id ∉ sendIds t.log

end Thread

/-! ### The ids of one send -/

section Ids

variable {minted : List String} {h : History}

theorem answered_cases {e : Exchange Query Answer} {reply : Reply} (he : reply? e = some reply) :
    started? e = reply.answered ∨ steered? e = reply.answered := by
  rcases e with ⟨_ | _ | _, answer⟩
  case turnStart => cases he; exact .inl rfl
  case turnSteer => cases he; exact .inr rfl
  case rollout => cases he

theorem mem_foldl_mint {id : String} (hid : id ∈ minted) : id ∈ h.foldl mint minted := by
  induction h generalizing minted with
  | nil => exact hid
  | cons e h ih => exact ih (List.mem_append_right _ hid)

theorem mem_minted_of_honest (hhonest : Along mint Honest minted h) {e : Exchange Query Answer}
    (he : e ∈ h) {id : String} :
    (started? e = some id → id ∉ minted ∧ id ∈ h.foldl mint minted) ∧
      (steered? e = some id → id ∈ h.foldl mint minted) := by
  induction h generalizing minted with
  | nil => cases he
  | cons x h ih =>
      rcases List.mem_cons.mp he with rfl | he
      · refine ⟨fun hid => ⟨hhonest.1.fresh id hid, mem_foldl_mint (h := h) ?_⟩,
          fun hid => mem_foldl_mint (h := h) ?_⟩
        · simp [mint, hid]
        · exact List.mem_append_right _ (hhonest.1.entered id hid)
      · obtain ⟨hstart, hsteer⟩ := ih hhonest.2 he
        refine ⟨fun hid => ⟨fun hmem => ?_, (hstart hid).2⟩, hsteer⟩
        exact (hstart hid).1 (List.mem_append_right _ hmem)

end Ids

namespace Thread

variable {sha256Hex} {threadId : String} {t : Thread}

def Distinct (t : Thread) : Prop := (sendIds t.log).Nodup

def Minted (t : Thread) : Prop := ∀ id ∈ sendIds t.log, id ∈ t.minted

theorem sendIds_step (s : Send) :
    sendIds (t.step sha256Hex (.send s)).log =
      sendIds t.log ++ if (s.home.filter (!·.isEmpty)).isSome then [s.turnId] else [] := by
  rw [step, sendIds_append, sendIds_emitDaemonSendEvents]

theorem exists_answered {s : Send} (hp : t.Possible threadId (.send s)) :
    ∃ e ∈ s.history, started? e = some s.turnId ∨ steered? e = some s.turnId := by
  obtain ⟨reply, hreply, hid⟩ := ((inject_oneSend _ _ _ _ _ hp.1).ok s.turnId).mp rfl
  obtain ⟨e, he, hsome⟩ := List.mem_filterMap.mp hreply
  rw [← hid]
  exact ⟨e, he, answered_cases hsome⟩

theorem turnId_of_steered {s : Send} (hp : t.Possible threadId (.send s))
    {e : Exchange Query Answer} (he : e ∈ s.history) {id : String} (hid : steered? e = some id) :
    id = s.turnId := by
  have hok : (Except.ok s.turnId : Except InjectError String) = .ok id := by
    refine ((inject_oneSend _ _ _ _ _ hp.1).ok id).mpr ?_
    rcases e with ⟨_ | _ | _, answer⟩
    case turnSteer => exact ⟨answer, List.mem_filterMap.mpr ⟨_, he, rfl⟩, hid⟩
    all_goals cases hid
  cases hok
  rfl

theorem entersAnew_iff {s : Send} (hp : t.Possible threadId (.send s)) (ht : t.Minted) :
    t.EntersAnew (.send s) ↔
      ((s.home.filter (!·.isEmpty)).isSome → s.turnId ∉ sendIds t.log) := by
  constructor
  · intro hanew hhome hmem
    obtain ⟨e, he, hstart | hsteer⟩ := exists_answered hp
    · exact ((mem_minted_of_honest hp.2 he).1 hstart).1 (ht _ hmem)
    · exact hanew hhome e he _ hsteer hmem
  · intro hnew hhome e he id hid
    rw [turnId_of_steered hp he hid]
    exact hnew hhome

theorem Minted.step (ht : t.Minted) {e : Event} (hp : t.Possible threadId e) :
    (t.step sha256Hex e).Minted := by
  cases e with
  | turn id => exact fun id' hid' => List.mem_cons_of_mem _ (ht id' hid')
  | send s =>
      intro id hid
      rw [sendIds_step] at hid
      rcases List.mem_append.mp hid with hid | hid
      · exact mem_foldl_mint (ht id hid)
      · split_ifs at hid with hhome
        · rw [List.mem_singleton.mp hid]
          obtain ⟨e, he, hstart | hsteer⟩ := exists_answered hp
          · exact ((mem_minted_of_honest hp.2 he).1 hstart).2
          · exact (mem_minted_of_honest hp.2 he).2 hsteer
        · cases hid

theorem distinct_step_iff (ht : t.Minted) {e : Event} (hp : t.Possible threadId e) :
    (t.step sha256Hex e).Distinct ↔ t.Distinct ∧ t.EntersAnew e := by
  cases e with
  | turn id => exact (and_iff_left trivial).symm
  | send s =>
      rw [Distinct, Distinct, sendIds_step, entersAnew_iff hp ht]
      split_ifs with hhome
      · rw [List.nodup_append', List.disjoint_singleton]
        simp [hhome]
      · simp [hhome]

end Thread

/-- **The codex sends.** Every call of the ladder sends once; and in every sequence of sends the
recorded ids are distinct exactly if no send is steered into a turn that has one already. -/
theorem codexSends (threadId : String) :
    (∀ appServer expectedTurnId message sender r h,
        (inject appServer expectedTurnId threadId message sender).Returns h r →
          OneSend (attributed message sender) r h) ∧
      ∀ run, Along (Thread.step sha256Hex) (Thread.Possible threadId) {} run →
        ((run.foldl (Thread.step sha256Hex) {}).Distinct ↔
          Along (Thread.step sha256Hex) Thread.EntersAnew {} run) := by
  refine ⟨fun _ _ _ _ _ _ hrun => inject_oneSend _ _ _ _ _ hrun, fun run hrun => ?_⟩
  have hstep (t : Thread) (e : Event) (ht : t.Minted) (hp : t.Possible threadId e) :
      (t.step sha256Hex e).Minted ∧ ((t.step sha256Hex e).Distinct ↔ t.Distinct ∧ t.EntersAnew e) :=
    ⟨ht.step hp, Thread.distinct_step_iff ht hp⟩
  have hstart : ({} : Thread).Minted := fun _ hid => by cases hid
  exact (Along.iff_of_step hstep hstart hrun).trans (and_iff_right List.nodup_nil)

def named (id : String) : Reply := .result (.ok { turnIdFlat := some id })

/-- A send of `go` into an idle thread. -/
def firstSend : Send where
  home := some "/home/u"
  message := "go".toList
  sender := cliSender
  expectedTurnId := none
  history := [⟨.turnStart "th" "go".toList, named "t1"⟩]
  turnId := "t1"

def secondSend : Send where
  home := some "/home/u"
  message := "go".toList
  sender := cliSender
  expectedTurnId := some "t1"
  history := [⟨.turnSteer "th" "t1" "go".toList, named "t1"⟩]
  turnId := "t1"

def goSha : Bytes → String :=
  fun _ => "4cd0e21a9a0795a14ec9aa5f0e7d1abff0492565770e43eafdf1e3e8afed1f33"

theorem cli_wire (message : List Char) : attributed message cliSender = message :=
  attributed_of_not_addressable (by decide) message

theorem firstSend_possible (t : Thread) (ht : "t1" ∉ t.minted) :
    t.Possible "th" (.send firstSend) := by
  constructor
  · simp only [inject, firstSend, cli_wire, Bool.true_eq_false, if_false]
    exact returns_turnStart.mpr ⟨named "t1", [], rfl, .pure _⟩
  · refine ⟨⟨fun id hid => ?_, fun id hid => by cases hid⟩, trivial⟩
    cases hid
    exact ht

theorem secondSend_possible (t : Thread) (ht : "t1" ∈ t.minted) :
    t.Possible "th" (.send secondSend) := by
  constructor
  · simp only [inject, secondSend, cli_wire, Bool.true_eq_false, if_false]
    exact returns_turnSteer.mpr ⟨named "t1", [], rfl, .pure _⟩
  · refine ⟨⟨fun id hid => (by cases hid), fun id hid => ?_⟩, trivial⟩
    cases hid
    exact ht

/-- A message into the turn that the one before it started is recorded under the same id. -/
theorem steeredSends_not_distinct :
    Along (Thread.step goSha) (Thread.Possible "th") {} [.send firstSend, .send secondSend] ∧
      ¬ ([Event.send firstSend, .send secondSend].foldl (Thread.step goSha) {}).Distinct := by
  refine ⟨⟨firstSend_possible _ (by simp), secondSend_possible _ ?_, trivial⟩, ?_⟩
  · decide
  · unfold Thread.Distinct
    decide

theorem codexSends_two :
    ([Event.send firstSend, .turn "t2"].foldl (Thread.step goSha) {}).Distinct := by
  have hrun : Along (Thread.step goSha) (Thread.Possible "th") {} [.send firstSend, .turn "t2"] :=
    ⟨firstSend_possible _ (by simp), by unfold Thread.Possible; decide, trivial⟩
  refine ((codexSends goSha "th").2 _ hrun).mpr ⟨?_, trivial, trivial⟩
  intro _ e he id _
  simp [sendIds]

end QuorumDispatch.Codex
