import Mathlib.Data.List.Count
import Mathlib.Data.List.Nodup
import QuorumDispatch.Lib.Fibers
import QuorumDispatch.Pi.Rollout

/-!
Any number of sends, observers and landing checks around one pi session, side by side. The
session writes a prompt that it has taken into its rollout at most once, when it likes, and may
write other lines.
-/

namespace QuorumDispatch.Pi

open Lib DeliveryEvents Provider

structure Submitted where
  turnId : String
  message : List Char
  sender : List Char
  /-- The length of the rollout when it was taken. -/
  since : Nat

structure Session where
  rollout : Rollout := []
  log : List Payload := []
  submitted : List Submitted := []
  /-- The prompts, by their place, whose own user record is in the rollout. -/
  recorded : List Nat := []

variable (sha256Hex : Bytes → String)

abbrev Processes := Pool Session (Process.run sha256Hex)

/-- A look at a file may fail, and so may an append to the log. Other writers may append to the
log what is no `message-seen`. -/
def rules : PoolRules Session (Process.run sha256Hex) where
  answers s _ e s' :=
    match e with
    | ⟨.inject message sender, turnId⟩ => s' = { s with
        submitted := s.submitted ++
          (turnId.map fun id => ⟨id, message, sender, s.rollout.length⟩).toList }
    | ⟨.readRollout, rollout⟩ => s' = s ∧ (rollout = none ∨ rollout = some s.rollout)
    | ⟨.readLog, log⟩ => s' = s ∧ (log = [] ∨ log = s.log)
    | ⟨.emit payload, _⟩ => s' = s ∨ s' = { s with log := s.log ++ [payload] }
    | _ => s' = s
  moves p s' :=
    (∃ line, s' = { p.shared with rollout := p.shared.rollout ++ [line] }) ∨
      (∃ k sent line, p.shared.submitted[k]? = some sent ∧ k ∉ p.shared.recorded ∧
        userText? line = some (attributed sent.message sent.sender) ∧
        s' = { p.shared with
          rollout := p.shared.rollout ++ [line]
          recorded := k :: p.shared.recorded }) ∨
      ∃ payload, isSeen payload = false ∧ s' = { p.shared with log := p.shared.log ++ [payload] }

variable {sha256Hex}

def seenIds (log : List Payload) : List String :=
  log.filterMap fun
    | .messageSeen sendId _ => some sendId
    | _ => none

/-- The sends that a process has found to have landed, and has still to write. -/
def todoIds (f : Fiber (Process.run sha256Hex)) : List String :=
  (progress sha256Hex f.key f.asked).todo.map (·.1)

def closing (p : Processes sha256Hex) : List String :=
  seenIds p.shared.log ++ p.fibers.flatMap todoIds

def OwnRecord (s : Session) (id : String) : Prop :=
  ∀ k sent, s.submitted[k]? = some sent → sent.turnId = id → k ∈ s.recorded

/-- A prompt is taken under an id of its own, and what an observer finds has landed by its own
record and is not about to be written by anybody else. -/
def Careful (p : Processes sha256Hex) : PoolAct Process Query Answer → Prop
  | .answer _ ⟨.inject _ _, some turnId⟩ => turnId ∉ closing p
  | .answer i ⟨.readLog, log⟩ => ∀ f rollout, p.fibers[i]? = some f →
      (progress sha256Hex f.key f.asked).rollout = some rollout →
        ((observed sha256Hex f.key.home log rollout).map (·.1) ++
          (p.fibers.eraseIdx i).flatMap todoIds).Nodup ∧
        ∀ id ∈ (observed sha256Hex f.key.home log rollout).map (·.1), OwnRecord p.shared id
  | _ => True

def seenSends (s : Session) (m : List Char) : List Nat :=
  (List.range s.submitted.length).filter fun k => s.submitted[k]?.any fun sent =>
    sent.message == m && (seenIds s.log).contains sent.turnId

/-- Where the rollout ended when the earliest of these sends was submitted. -/
def earliest (s : Session) (m : List Char) : Nat :=
  ((seenSends s m).filterMap fun k => s.submitted[k]?.map (·.since)).min?.getD s.rollout.length

structure CountedOnce (s : Session) : Prop where
  once : (seenIds s.log).Nodup
  /-- No text has more sends that are recorded as seen than user records behind the earliest. -/
  backed : ∀ m, (seenSends s m).length ≤ (s.rollout.drop (earliest s m)).countP (carries m)

/-! ### What a step changes -/

inductive Change (s s' : Session) : Prop where
  | same (hs : s' = s)
  | line (line : Option Json) (hs : s' = { s with rollout := s.rollout ++ [line] })
  | record (k : Nat) (sent : Submitted) (line : Option Json) (hsent : s.submitted[k]? = some sent)
      (hnew : k ∉ s.recorded) (hline : userText? line = some (attributed sent.message sent.sender))
      (hs : s' = { s with rollout := s.rollout ++ [line], recorded := k :: s.recorded })
  | submit (turnId : String) (message sender : List Char) (hs : s' = { s with
      submitted := s.submitted ++ [⟨turnId, message, sender, s.rollout.length⟩] })
  | logged (payload : Payload) (hs : s' = { s with log := s.log ++ [payload] })

section Steps

variable {p p' : Processes sha256Hex} {a : PoolAct Process Query Answer}

theorem change_of_step (h : Pool.Step (rules sha256Hex) p a p') : Change p.shared p'.shared := by
  cases h with
  | start key => exact .same rfl
  | move hs =>
      rcases hs with ⟨line, hs⟩ | ⟨k, sent, line, hsent, hnew, hline, hs⟩ | ⟨payload, -, hs⟩
      · exact .line line hs
      · exact .record k sent line hsent hnew hline hs
      · exact .logged payload hs
  | @answer s i f q next b hf hq hs =>
      cases q with
      | inject message sender =>
          cases b with
          | none => exact .same (hs.trans (by simp))
          | some turnId => exact .submit turnId message sender hs
      | readRollout => exact .same hs.1
      | readLog => exact .same hs.1
      | emit payload =>
          rcases hs with hs | hs
          · exact .same hs
          · exact .logged payload hs
      | _ => exact .same hs

theorem seenIds_snoc (log : List Payload) (payload : Payload) :
    seenIds (log ++ [payload]) = seenIds log ++ seenIds [payload] :=
  List.filterMap_append

theorem seenIds_of_not_seen {payload : Payload} (h : isSeen payload = false) :
    seenIds [payload] = [] := by
  cases payload <;> first | rfl | cases h

end Steps

/-! ### A recorded prompt has its line -/

/-- The recorded sends of a text that were submitted at a point or behind it. -/
def recordedBehind (s : Session) (m : List Char) (n : Nat) : List Nat :=
  s.recorded.filter fun k => s.submitted[k]?.any fun sent => sent.message == m && decide (n ≤ sent.since)

structure Session.Inv (s : Session) : Prop where
  since : ∀ (k : Nat) (sent : Submitted), s.submitted[k]? = some sent → sent.since ≤ s.rollout.length
  placed : ∀ k ∈ s.recorded, k < s.submitted.length
  counts : ∀ m n, (recordedBehind s m n).length ≤ (s.rollout.drop n).countP (carries m)

section Recorded

variable {s s' : Session}

theorem carries_own {line : Option Json} {m sender : List Char}
    (h : userText? line = some (attributed m sender)) : carries m line = true := by
  rw [carries, h, Option.any_some]
  cases haddr : isAddressable sender with
  | false =>
      rw [attributed_of_not_addressable haddr]
      simp
  | true =>
      rw [innerBody_attributed haddr]
      simp

theorem countP_drop_le {rollout : Rollout} (m : List Char) (n : Nat) (line : Option Json) :
    (rollout.drop n).countP (carries m) ≤ ((rollout ++ [line]).drop n).countP (carries m) :=
  ((List.prefix_append rollout [line]).drop n).sublist.countP_le

theorem Session.Inv.init : Session.Inv {} where
  since k sent h := by cases h
  placed k h := by cases h
  counts m n := Nat.zero_le _

theorem Session.Inv.record (h : s.Inv) {k : Nat} {sent : Submitted} {line : Option Json}
    (hsent : s.submitted[k]? = some sent)
    (hline : userText? line = some (attributed sent.message sent.sender)) :
    Session.Inv { s with rollout := s.rollout ++ [line], recorded := k :: s.recorded } where
  since j other hother := by
    have hle := h.since j other hother
    rw [List.length_append]
    exact Nat.le_add_right_of_le hle
  placed j hj := by
    rcases List.mem_cons.mp hj with rfl | hj
    · exact (List.getElem?_eq_some_iff.mp hsent).1
    · exact h.placed j hj
  counts m n := by
    have hcounts := h.counts m n
    unfold recordedBehind at hcounts ⊢
    simp only [List.filter_cons, hsent, Option.any_some]
    split
    case isTrue hsame =>
        -- the new line carries the text, and is behind the submission
        simp only [Bool.and_eq_true, beq_iff_eq, decide_eq_true_eq] at hsame
        obtain ⟨rfl, hle⟩ := hsame
        have hsince := h.since k sent hsent
        rw [List.drop_append_of_le_length (Nat.le_trans hle hsince), List.countP_append,
          List.countP_singleton, if_pos (carries_own hline), List.length_cons]
        exact Nat.succ_le_succ hcounts
    case isFalse => exact Nat.le_trans hcounts (countP_drop_le m n line)

theorem Session.Inv.submit (h : s.Inv) (turnId : String) (message sender : List Char) :
    Session.Inv { s with
      submitted := s.submitted ++ [⟨turnId, message, sender, s.rollout.length⟩] } where
  since k sent hsent := by
    rw [List.getElem?_append] at hsent
    split at hsent
    · exact h.since k sent hsent
    · obtain rfl := List.mem_singleton.mp (List.mem_of_getElem? hsent)
      exact Nat.le_refl _
  placed k hk := by
    rw [List.length_append]
    exact Nat.lt_add_right _ (h.placed k hk)
  counts m n := by
    have hcounts := h.counts m n
    unfold recordedBehind at hcounts ⊢
    have hold : ∀ k ∈ s.recorded,
        (s.submitted ++ [⟨turnId, message, sender, s.rollout.length⟩])[k]? = s.submitted[k]? :=
      fun k hk => List.getElem?_append_left (h.placed k hk)
    rwa [List.filter_congr fun k hk => by rw [hold k hk]]

theorem Session.Inv.step (h : s.Inv) (hchange : Change s s') : s'.Inv := by
  cases hchange with
  | same hs => rwa [hs]
  | line line hs =>
      rw [hs]
      refine ⟨fun k sent hsent => ?_, h.placed, fun m n => ?_⟩
      · rw [List.length_append]
        exact Nat.le_add_right_of_le (h.since k sent hsent)
      · exact Nat.le_trans (h.counts m n) (countP_drop_le m n line)
  | record k sent line hsent hnew hline hs =>
      rw [hs]
      exact h.record hsent hline
  | submit turnId message sender hs =>
      rw [hs]
      exact h.submit turnId message sender
  | logged payload hs =>
      rw [hs]
      exact ⟨h.since, h.placed, h.counts⟩

end Recorded

/-! ### What is being closed -/

structure Inv (p : Processes sha256Hex) : Prop where
  session : p.shared.Inv
  once : (closing p).Nodup
  own : ∀ id ∈ closing p, OwnRecord p.shared id

section Closing

variable {p p' : Processes sha256Hex} {a : PoolAct Process Query Answer} {i : Nat}
  {f f' : Fiber (Process.run sha256Hex)} {s : Session}

theorem closing_perm (hf : p.fibers[i]? = some f) :
    (closing p).Perm (seenIds p.shared.log ++ (todoIds f ++ (p.fibers.eraseIdx i).flatMap todoIds)) :=
  (Pool.flatMap_perm todoIds hf).append_left _

theorem closing_set_perm (hf : p.fibers[i]? = some f) (s : Session)
    (f' : Fiber (Process.run sha256Hex)) :
    (closing (⟨s, p.fibers.set i f'⟩ : Processes sha256Hex)).Perm
      (seenIds s.log ++ (todoIds f' ++ (p.fibers.eraseIdx i).flatMap todoIds)) :=
  (Pool.flatMap_set_perm todoIds hf f').append_left _

theorem closing_set_of_todoIds (hf : p.fibers[i]? = some f) (htodo : todoIds f' = todoIds f)
    (hlog : seenIds s.log = seenIds p.shared.log) :
    (closing (⟨s, p.fibers.set i f'⟩ : Processes sha256Hex)).Subperm (closing p) := by
  refine ((closing_set_perm hf s f').trans ?_).subperm
  rw [hlog, htodo]
  exact (closing_perm hf).symm

theorem todoIds_answer {q : Query} {next : Answer q → PiM Unit} (hq : f.rest = .ask q next)
    (b : Answer q) : todoIds (f.answer hq b) =
      ((progress sha256Hex f.key f.asked).step sha256Hex f.key.home ⟨q, b⟩).todo.map (·.1) := by
  rw [← progress_snoc]
  rfl

theorem closing_emit {payload : Payload} {next : Unit → PiM Unit} (hf : p.fibers[i]? = some f)
    (hq : f.rest = .ask (.emit payload) next)
    (hs : s = p.shared ∨ s = { p.shared with log := p.shared.log ++ [payload] }) :
    (closing (⟨s, p.fibers.set i (f.answer hq ())⟩ : Processes sha256Hex)).Subperm (closing p) := by
  have htodo : todoIds (f.answer hq ()) = (todoIds f).tail := by
    rw [todoIds_answer]
    exact List.map_tail
  have hrest : (seenIds p.shared.log ++ ((todoIds f).tail ++
      (p.fibers.eraseIdx i).flatMap todoIds)).Sublist
        (seenIds p.shared.log ++ (todoIds f ++ (p.fibers.eraseIdx i).flatMap todoIds)) :=
    ((List.tail_sublist _).append (List.Sublist.refl _)).append_left _
  refine ((closing_set_perm hf s _).subperm.trans ?_).trans (closing_perm hf).symm.subperm
  rw [htodo]
  rcases hs with rfl | rfl
  · exact hrest.subperm
  cases hseen : isSeen payload with
  | false =>
      simp only [seenIds_snoc, seenIds_of_not_seen hseen, List.append_nil]
      exact hrest.subperm
  | true =>
      obtain ⟨id, sha, hhead, rfl⟩ := f.allowed_next (run_ensures f.key) hq hseen
      obtain ⟨todo, hcons⟩ : ∃ todo, todoIds f = id :: todo := by
        obtain ⟨todo, hcons⟩ := List.head?_eq_some_iff.mp hhead
        exact ⟨todo.map (·.1), by rw [todoIds, hcons]; rfl⟩
      rw [hcons, seenIds_snoc]
      have hsame : seenIds p.shared.log ++ seenIds [Payload.messageSeen id sha] ++
          (todo ++ (p.fibers.eraseIdx i).flatMap todoIds) = seenIds p.shared.log ++
            (id :: todo ++ (p.fibers.eraseIdx i).flatMap todoIds) := by
        simp [seenIds]
      exact hsame.symm ▸ List.Subperm.refl _

theorem closing_step (h : Pool.Step (rules sha256Hex) p a p')
    (hread : ∀ i log, a ≠ .answer i ⟨.readLog, log⟩) : (closing p').Subperm (closing p) := by
  cases h with
  | start key =>
      have hnew : todoIds (.new key : Fiber (Process.run sha256Hex)) = [] := rfl
      simp only [closing, List.flatMap_append, List.flatMap_singleton, hnew, List.append_nil]
      exact List.Subperm.refl _
  | move hs =>
      rcases hs with ⟨line, rfl⟩ | ⟨k, sent, line, -, -, -, rfl⟩ | ⟨payload, hseen, rfl⟩
      · exact List.Subperm.refl _
      · exact List.Subperm.refl _
      · simp only [closing, seenIds_snoc, seenIds_of_not_seen hseen, List.append_nil]
        exact List.Subperm.refl _
  | @answer s i f q next b hf hq hs =>
      cases q with
      | readLog => exact absurd rfl (hread i b)
      | emit payload => exact closing_emit hf hq hs
      | inject message sender =>
          refine closing_set_of_todoIds hf (todoIds_answer hq b) ?_
          rw [show s = _ from hs]
      | readRollout =>
          refine closing_set_of_todoIds hf (todoIds_answer hq b) ?_
          rw [hs.1]
      | _ =>
          refine closing_set_of_todoIds hf (todoIds_answer hq b) ?_
          rw [show s = _ from hs]

theorem mem_seenIds {log : List Payload} {id : String} (h : id ∈ seenIds log) :
    log.any (isTerminalFor id) = true := by
  obtain ⟨payload, hmem, hpayload⟩ := List.mem_filterMap.mp h
  refine List.any_eq_true.mpr ⟨payload, hmem, ?_⟩
  split at hpayload
  · cases hpayload
    simp [isTerminalFor, Payload.sendId, Payload.eventName, isTerminal, terminalEvents]
  · cases hpayload

theorem observed_disjoint (home : Option String) (log : List Payload) (rollout : Rollout) :
    (seenIds log).Disjoint ((observed sha256Hex home log rollout).map (·.1)) := by
  intro id hseen hid
  obtain ⟨⟨_, sha⟩, hmem, rfl⟩ := List.mem_map.mp hid
  unfold observed at hmem
  split at hmem
  · cases hmem
  · have hnot := not_terminal_of_mem_pendingLandedSends sha256Hex hmem
    rw [mem_seenIds hseen] at hnot
    cases hnot

theorem OwnRecord.mono {s s' : Session} {id : String} (h : OwnRecord s id)
    (hsubmitted : s'.submitted = s.submitted) (hrecorded : s.recorded ⊆ s'.recorded) :
    OwnRecord s' id :=
  fun k sent hsent hid => hrecorded (h k sent (hsubmitted ▸ hsent) hid)

theorem OwnRecord.step (h : Pool.Step (rules sha256Hex) p a p') (ha : Careful p a) {id : String}
    (hid : id ∈ closing p) (hown : OwnRecord p.shared id) : OwnRecord p'.shared id := by
  cases h with
  | start key => exact hown
  | move hs =>
      rcases hs with ⟨line, rfl⟩ | ⟨k, sent, line, -, -, -, rfl⟩ | ⟨payload, -, rfl⟩
      · exact hown.mono rfl fun _ hk => hk
      · exact hown.mono rfl (List.subset_cons_self k _)
      · exact hown.mono rfl fun _ hk => hk
  | @answer s i f q next b hf hq hs =>
      cases q with
      | inject message sender =>
          obtain rfl : s = _ := hs
          intro k sent hsent hturn
          rw [List.getElem?_append] at hsent
          split at hsent
          · exact hown k sent hsent hturn
          · -- the new prompt has another id
            cases b with
            | none => cases hsent
            | some turnId =>
                obtain rfl := List.mem_singleton.mp (List.mem_of_getElem? hsent)
                exact absurd hid (hturn ▸ ha)
      | readRollout => exact hs.1 ▸ hown
      | readLog => exact hs.1 ▸ hown
      | emit payload =>
          rcases hs with rfl | rfl
          · exact hown
          · exact hown.mono rfl fun _ hk => hk
      | _ =>
          obtain rfl : s = _ := hs
          exact hown

theorem Inv.readLog (h : Inv p) {log : List Payload} {next : List Payload → PiM Unit}
    (hf : p.fibers[i]? = some f) (hq : f.rest = .ask .readLog next)
    (hlog : log = [] ∨ log = p.shared.log) (ha : Careful p (.answer i ⟨.readLog, log⟩)) :
    (closing (⟨p.shared, p.fibers.set i (f.answer hq log)⟩ : Processes sha256Hex)).Nodup ∧
      ∀ id ∈ closing (⟨p.shared, p.fibers.set i (f.answer hq log)⟩ : Processes sha256Hex),
        OwnRecord p.shared id := by
  have hperm := closing_set_perm hf p.shared (f.answer hq log)
  obtain ⟨hseen, hpending, hold⟩ := List.nodup_append'.mp ((closing_perm hf).nodup_iff.mp h.once)
  have hothers : (seenIds p.shared.log).Disjoint ((p.fibers.eraseIdx i).flatMap todoIds) :=
    (List.disjoint_append_right.mp hold).2
  have hown : ∀ id ∈ seenIds p.shared.log ++ (p.fibers.eraseIdx i).flatMap todoIds,
      OwnRecord p.shared id := by
    intro id hid
    refine h.own id ((closing_perm hf).mem_iff.mpr ?_)
    rcases List.mem_append.mp hid with hid | hid
    · exact List.mem_append_left _ hid
    · exact List.mem_append_right _ (List.mem_append_right _ hid)
  rw [hperm.nodup_iff]
  simp only [hperm.mem_iff]
  cases hrollout : (progress sha256Hex f.key f.asked).rollout with
  | none =>
      have htodo : todoIds (f.answer hq log) = [] := by
        rw [todoIds_answer, Progress.step, hrollout]
        rfl
      rw [htodo, List.nil_append, List.nodup_append']
      exact ⟨⟨hseen, (List.nodup_append'.mp hpending).2.1, hothers⟩, hown⟩
  | some rollout =>
      obtain ⟨hnodup, hfound⟩ := ha f rollout hf hrollout
      have htodo : todoIds (f.answer hq log) =
          (observed sha256Hex f.key.home log rollout).map (·.1) := by
        rw [todoIds_answer, Progress.step, hrollout]
        rfl
      rw [htodo]
      constructor
      · rw [List.nodup_append']
        refine ⟨hseen, hnodup, List.disjoint_append_right.mpr ⟨?_, hothers⟩⟩
        rcases hlog with rfl | rfl
        · -- a log that could not be read has no sends in it
          have hnone : observed sha256Hex f.key.home [] rollout = [] := by
            unfold observed
            split <;> rfl
          rw [hnone]
          exact List.disjoint_nil_right _
        · exact observed_disjoint _ _ _
      · intro id hid
        simp only [List.mem_append] at hid hown
        rcases hid with hid | hid | hid
        · exact hown id (.inl hid)
        · exact hfound id hid
        · exact hown id (.inr hid)

theorem Inv.step (h : Inv p) (hstep : Pool.Step (rules sha256Hex) p a p') (ha : Careful p a) :
    Inv p' := by
  have hsession := h.session.step (change_of_step hstep)
  by_cases hread : ∃ i log, a = .answer i ⟨.readLog, log⟩
  · obtain ⟨i, log, rfl⟩ := hread
    cases hstep with
    | @answer s _ f _ next _ hf hq hs =>
        obtain ⟨rfl, hlog⟩ := hs
        obtain ⟨honce, hown⟩ := h.readLog hf hq hlog ha
        exact ⟨hsession, honce, hown⟩
  · have hsub := closing_step hstep fun i log heq => hread ⟨i, log, heq⟩
    obtain ⟨kept, hperm, hsublist⟩ := hsub
    refine ⟨hsession, hperm.nodup_iff.mp (h.once.sublist hsublist), fun id hid => ?_⟩
    have hold := hsublist.subset (hperm.mem_iff.mpr hid)
    exact (h.own id hold).step hstep ha hold

end Closing

theorem inv_init : Inv (⟨{}, []⟩ : Processes sha256Hex) where
  session := .init
  once := List.nodup_nil
  own id hid := by cases hid

theorem Inv.countedOnce {p : Processes sha256Hex} (h : Inv p) : CountedOnce p.shared where
  once := (List.nodup_append'.mp h.once).1
  backed m := by
    have hnodup : (seenSends p.shared m).Nodup := List.nodup_range.filter _
    have hsubset : seenSends p.shared m ⊆ recordedBehind p.shared m (earliest p.shared m) := by
      intro k hk
      obtain ⟨-, hsent⟩ := List.mem_filter.mp hk
      obtain ⟨sent, hget, hboth⟩ := (Option.any_eq_true ..).mp hsent
      simp only [Bool.and_eq_true, beq_iff_eq, List.contains_iff_mem] at hboth
      have hrecorded := h.own sent.turnId (List.mem_append_left _ hboth.2) k sent hget rfl
      refine List.mem_filter.mpr ⟨hrecorded, ?_⟩
      have hle : earliest p.shared m ≤ sent.since :=
        List.min?_getD_le_of_mem (List.mem_filterMap.mpr ⟨k, hk, by rw [hget]; rfl⟩)
      simp [hget, hboth.1, hle]
    exact Nat.le_trans (List.subperm_of_subset hnodup hsubset).length_le (h.session.counts m _)

/-- **A landing is counted once**, in every run whose steps all meet the condition. -/
theorem countedOnce_of_careful {p : Processes sha256Hex}
    (h : Pool.Reachable (rules sha256Hex) Careful {} p) : CountedOnce p.shared := by
  have hinv : Inv p := h.invariant inv_init fun _ _ _ hinv hstep ha => hinv.step hstep ha
  exact hinv.countedOnce

/-! ### Two observers of one landing -/

/-- The digest of `ok`. -/
def okDigest (_ : Bytes) : String :=
  "2689367b205c16ce32ed4200942b8b8b1e262dfc70d9bc9fbc77c49699a4f1df"

def home : Option String := some "/home/op"

/-- The user record of a bare `ok`. -/
def okLine : Json :=
  .obj [("type", .str "message"), ("message", .obj [("role", .str "user"),
    ("content", .arr [.obj [("type", .str "text"), ("text", .str "ok")]])])]

def sentOk : List Payload :=
  emitDaemonSendEvents okDigest home "ok".toList "c1" "pi"

def okSent : History :=
  ⟨.inject "ok".toList cliSender, some "c1"⟩ :: sentOk.map fun payload => ⟨.emit payload, ()⟩

def okFound : History :=
  [⟨.rolloutExists, true⟩, ⟨.readRollout, some [some okLine]⟩, ⟨.readLog, sentOk⟩]

def okSeen : Payload := .messageSeen "c1" (okDigest [])

theorem sendPi_leads :
    ((Process.send home "ok".toList cliSender).run okDigest).Leads okSent (pure ()) := by
  refine .ask (A := Answer) (q := .inject _ _) (some "c1") ?_
  refine .ask (A := Answer) (q := .emit _) () ?_
  refine .ask (A := Answer) (q := .emit _) () ?_
  exact .here

theorem observed_ok : observed okDigest home sentOk [some okLine] = [("c1", okDigest [])] := by
  decide

theorem observe_leads :
    ((Process.observe home).run okDigest).Leads (okFound ++ [⟨.emit okSeen, ()⟩]) (pure ()) := by
  refine .ask (A := Answer) (q := .rolloutExists) true ?_
  refine .ask (A := Answer) (q := .readRollout) (some [some okLine]) ?_
  refine .ask (A := Answer) (q := .readLog) sentOk ?_
  refine .ask (A := Answer) (q := .emit _) () ?_
  exact .here

def okTaken : Session where
  log := sentOk
  submitted := [⟨"c1", "ok".toList, cliSender, 0⟩]

def okRecorded : Session := { okTaken with rollout := [some okLine], recorded := [0] }

theorem okRecorded_reachable : ∃ f : Fiber (Process.run okDigest), todoIds f = [] ∧
    Pool.Reachable (rules okDigest) Careful {} ⟨okRecorded, [f]⟩ := by
  obtain ⟨next, hrest, hleads⟩ := Dialog.leads_cons sendPi_leads
  have hstart : Pool.Reachable (rules okDigest) Careful {}
      ⟨{}, [.new (.send home "ok".toList cliSender)]⟩ := Pool.Reachable.init.step (.start _) trivial
  have hinject : Pool.Step (rules okDigest) ⟨{}, [.new (.send home "ok".toList cliSender)]⟩
      (.answer 0 ⟨.inject "ok".toList cliSender, some "c1"⟩)
      ⟨{ okTaken with log := [] }, [Fiber.answer (.new (.send home "ok".toList cliSender)) hrest _]⟩ :=
    .answer _ rfl hrest rfl
  have hserves : Pool.Serves (rules okDigest) 0 { okTaken with log := [] }
      (sentOk.map fun payload => ⟨.emit payload, ()⟩) okTaken := ⟨_, .inr rfl, _, .inr rfl, rfl⟩
  obtain ⟨f, hkey, hasked, -, hp⟩ := (hstart.step hinject List.not_mem_nil).serve rfl hleads hserves
    fun p e he => by
      obtain ⟨payload, -, rfl⟩ := List.mem_map.mp he
      trivial
  refine ⟨f, ?_, hp.step (.move (.inr (.inl ⟨0, _, some okLine, rfl, List.not_mem_nil, ?_, rfl⟩))) trivial⟩
  · rw [todoIds, hkey, hasked]
    rfl
  · decide

theorem okFound_split : ∃ m next, m = Dialog.ask .readLog next ∧
    ((Process.observe home).run okDigest).Leads (okFound.take 2) m ∧
      (next sentOk).Leads [⟨.emit okSeen, ()⟩] (pure ()) := by
  have hwhole : ((Process.observe home).run okDigest).Leads
      (okFound.take 2 ++ [⟨.readLog, sentOk⟩, ⟨.emit okSeen, ()⟩]) (pure ()) := observe_leads
  obtain ⟨m, hfirst, hlast⟩ := hwhole.split
  obtain ⟨next, rfl, hrest⟩ := Dialog.leads_cons hlast
  exact ⟨_, next, rfl, hfirst, hrest⟩

def okClosed : Session := { okRecorded with log := sentOk ++ [okSeen] }

theorem okClosed_countedOnce : CountedOnce okClosed := by
  obtain ⟨f, htodo, hp⟩ := okRecorded_reachable
  obtain ⟨m, next, rfl, hfirst, hlast⟩ := okFound_split
  have hstart : Pool.Reachable (rules okDigest) Careful {}
      ⟨okRecorded, [f, .new (.observe home)]⟩ := hp.step (.start _) trivial
  have hlook : Pool.Serves (rules okDigest) 1 okRecorded (okFound.take 2) okRecorded :=
    ⟨_, rfl, _, ⟨rfl, .inr rfl⟩, rfl⟩
  obtain ⟨g, hkey, hasked, hrest, hp⟩ := hstart.serve rfl hfirst hlook (by simp [okFound, Careful])
  have hfound : Careful (⟨okRecorded, [f, g]⟩ : Processes okDigest) (.answer 1 ⟨.readLog, sentOk⟩) := by
    rintro _ rollout ⟨⟩ hrollout
    obtain rfl : [some okLine] = rollout := by
      rw [hkey, hasked] at hrollout
      exact Option.some.inj hrollout
    rw [hkey]
    change ((observed okDigest home sentOk [some okLine]).map _ ++ List.flatMap todoIds [f]).Nodup ∧
      ∀ id ∈ (observed okDigest home sentOk [some okLine]).map _, OwnRecord okRecorded id
    rw [observed_ok, List.flatMap_singleton, htodo]
    refine ⟨List.nodup_singleton _, fun id _ k sent hsent _ => ?_⟩
    cases k with
    | zero => exact List.mem_singleton_self 0
    | succ k => cases hsent
  have hread : Pool.Step (rules okDigest) ⟨okRecorded, [f, g]⟩ (.answer 1 ⟨.readLog, sentOk⟩)
      ⟨okRecorded, [f, g.answer hrest _]⟩ := .answer _ rfl hrest ⟨rfl, .inr rfl⟩
  have hwrite : Pool.Serves (rules okDigest) 1 okRecorded [⟨.emit okSeen, ()⟩] okClosed :=
    ⟨_, .inr rfl, rfl⟩
  obtain ⟨g', -, -, -, hp⟩ := (Pool.Reachable.step hp hread hfound).serve rfl hlast hwrite
    (by simp [Careful])
  exact countedOnce_of_careful hp

/-- Two observers that read the log before either has written close the send twice. -/
theorem twoObservers_not_countedOnce : ∃ p : Processes okDigest,
    Pool.Reachable (rules okDigest) (fun _ _ => True) {} p ∧ ¬ CountedOnce p.shared := by
  obtain ⟨f, -, hp⟩ := okRecorded_reachable
  obtain ⟨m, hfound, hlast⟩ := observe_leads.split
  have hlook (i : Nat) : Pool.Serves (rules okDigest) i okRecorded okFound okRecorded :=
    ⟨_, rfl, _, ⟨rfl, .inr rfl⟩, _, ⟨rfl, .inr rfl⟩, rfl⟩
  have hstart : Pool.Reachable (rules okDigest) (fun _ _ => True) {}
      ⟨okRecorded, [f, .new (.observe home)]⟩ :=
    (hp.mono fun _ _ _ => trivial).step (.start _) trivial
  obtain ⟨g, -, -, hrest, hp⟩ := hstart.serve rfl hfound (hlook 1) fun _ _ _ => trivial
  have hstart' : Pool.Reachable (rules okDigest) (fun _ _ => True) {}
      ⟨okRecorded, [f, g, .new (.observe home)]⟩ := hp.step (.start _) trivial
  obtain ⟨g', -, -, hrest', hp⟩ := hstart'.serve rfl hfound (hlook 2) fun _ _ _ => trivial
  have hwrite : Pool.Serves (rules okDigest) 1 okRecorded [⟨.emit okSeen, ()⟩] okClosed :=
    ⟨_, .inr rfl, rfl⟩
  have hwrite' : Pool.Serves (rules okDigest) 2 okClosed [⟨.emit okSeen, ()⟩]
      { okClosed with log := okClosed.log ++ [okSeen] } := ⟨_, .inr rfl, rfl⟩
  obtain ⟨_, -, -, -, hp⟩ := hp.serve (f := g) rfl (hrest ▸ hlast) hwrite fun _ _ _ => trivial
  obtain ⟨_, -, -, -, hp⟩ := hp.serve (f := g') rfl (hrest' ▸ hlast) hwrite' fun _ _ _ => trivial
  refine ⟨_, hp, fun hcounted => ?_⟩
  have htwice : ¬ (seenIds (okClosed.log ++ [okSeen])).Nodup := by decide
  exact htwice hcounted.once

end QuorumDispatch.Pi
