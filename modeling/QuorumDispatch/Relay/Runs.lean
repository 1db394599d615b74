import Mathlib.Data.List.DropRight
import Mathlib.Data.List.Induction
import Mathlib.Data.List.Nodup
import QuorumDispatch.Relay.State

/-!
Runs of the operations on a relay's state, in the order in which they get the lock.

The origins are kept in a map and in the order of their insertion. Of a run, only the records
count: an id that is not retained is inserted, and the last insertions are retained. Expired
replies are gone at the latest when they are read, so it does not matter when they are swept.
-/

namespace QuorumDispatch.Relay

namespace RelayState

/-- `sweep_expired`, without the count of what it evicts. -/
def sweepExpired (s : RelayState) (now : Nat) : RelayState :=
  { s with resolved := fun id => (s.resolved id).filter fun entry => now < entry.deadline }

end RelayState

/-! ### Calls -/

/-- An operation as the server issues it, with the instant it is issued at where that matters. -/
inductive StateOp where
  | recordOrigin (id : MessageId) (fromSession : SessionId) (isReply : Bool)
  | bufferReply (id : MessageId) (text : Text) (now : Nat)
  | peekResolved (id : MessageId) (now : Nat)
  | sweepExpired (now : Nat)
  | registerWaiter (id : MessageId)
  | removeWaiter (id : MessageId)
  | markVerify (id : MessageId)
  | offerAck (id : MessageId) (written : Bool)
  | takeAck (id : MessageId)
  | unmarkVerify (id : MessageId)
deriving DecidableEq, Repr

namespace StateOp

def now? : StateOp → Option Nat
  | bufferReply _ _ now | peekResolved _ now | sweepExpired now => some now
  | _ => none

def isSweep : StateOp → Bool
  | sweepExpired _ => true
  | _ => false

def record? : StateOp → Option (MessageId × OriginRec)
  | recordOrigin id fromSession isReply => some (id, { fromSession, isReply })
  | _ => none

end StateOp

namespace RelayState

def call (s : RelayState) : StateOp → RelayState
  | .recordOrigin id fromSession isReply => s.recordOrigin id fromSession isReply
  | .bufferReply id text now => s.bufferReply id text (now + resolvedTtl)
  | .peekResolved id now => (s.peekResolved id now).2
  | .sweepExpired now => s.sweepExpired now
  | .registerWaiter id => s.registerWaiter id
  | .removeWaiter id => s.removeWaiter id
  | .markVerify id => s.markVerify id
  | .offerAck id written => s.offerAck id written
  | .takeAck id => (s.takeAck id).2
  | .unmarkVerify id => s.unmarkVerify id

/-- What a call to `peek_resolved` returns. -/
def peeked (s : RelayState) : StateOp → List (Option Text)
  | .peekResolved id now => [(s.peekResolved id now).1]
  | _ => []

def run (s : RelayState) (calls : List StateOp) : RelayState := calls.foldl call s

def peeks : RelayState → List StateOp → List (Option Text)
  | _, [] => []
  | s, c :: calls => s.peeked c ++ (s.call c).peeks calls

end RelayState

def Timed (calls : List StateOp) : Prop := (calls.filterMap StateOp.now?).Pairwise (· ≤ ·)

instance (calls : List StateOp) : Decidable (Timed calls) :=
  inferInstanceAs (Decidable ((calls.filterMap StateOp.now?).Pairwise (· ≤ ·)))

/-! ### What the origins are for -/

section

local instance lawfulMessageId : LawfulBEq MessageId := inferInstance

/-- The ids that were inserted, an id anew whenever it is no longer among the last ones. -/
def inserted : List (MessageId × OriginRec) → List MessageId :=
  List.foldl (fun ids r => if r.1 ∈ ids.rtake maxTrackedOrigins then ids else ids ++ [r.1]) []

end

/-- The ids that are retained, in the order of their insertion. -/
def retained (records : List (MessageId × OriginRec)) : List MessageId :=
  (inserted records).rtake maxTrackedOrigins

def lastRecorded (records : List (MessageId × OriginRec)) (id : MessageId) : Option OriginRec :=
  (records.findRev? fun r => r.1 = id).map Prod.snd

structure Represents (s : RelayState) (calls : List StateOp) : Prop where
  keys : s.originsOrder.Nodup ∧ s.originsOrder.Perm (s.origins.map Prod.fst)
  order : s.originsOrder = retained (calls.filterMap StateOp.record?)
  origins : ∀ id, s.originFor id =
    if id ∈ retained (calls.filterMap StateOp.record?) then
      lastRecorded (calls.filterMap StateOp.record?) id
    else none
  acks : ∀ id, (s.acks id).isSome → s.verifyOpen id = true

variable {s s' : RelayState}

/-! ### Origins -/

theorem rtake_append_singleton {α : Type} (l : List α) (a : α) {n : Nat} (hn : 0 < n) :
    (l ++ [a]).rtake n = (if n ≤ (l.rtake n).length then (l.rtake n).tail else l.rtake n) ++ [a] := by
  obtain ⟨n, rfl⟩ : ∃ k, n = k + 1 := ⟨n - 1, by omega⟩
  rw [List.rtake_concat_succ]
  congr 1
  unfold List.rtake
  rw [List.length_drop]
  split
  next h =>
    rw [List.tail_drop]
    congr 1
    omega
  next h =>
    congr 1
    omega

theorem inserted_snoc (records : List (MessageId × OriginRec)) (r : MessageId × OriginRec) :
    inserted (records ++ [r]) =
      if r.1 ∈ retained records then inserted records else inserted records ++ [r.1] := by
  simp only [inserted, retained, List.foldl_append, List.foldl_cons, List.foldl_nil]
  congr

theorem retained_snoc (records : List (MessageId × OriginRec)) (r : MessageId × OriginRec) :
    retained (records ++ [r]) =
      if r.1 ∈ retained records then retained records
      else
        (if maxTrackedOrigins ≤ (retained records).length then (retained records).tail
          else retained records) ++ [r.1] := by
  rw [retained, inserted_snoc]
  split
  · rfl
  · exact rtake_append_singleton (inserted records) r.1 (by decide)

theorem lastRecorded_snoc (records : List (MessageId × OriginRec)) (r : MessageId × OriginRec)
    (id : MessageId) :
    lastRecorded (records ++ [r]) id = if r.1 = id then some r.2 else lastRecorded records id := by
  simp only [lastRecorded, List.findRev?_eq_find?_reverse, List.reverse_append,
    List.reverse_singleton, List.singleton_append, List.find?_cons]
  by_cases h : r.1 = id
  · simp [h]
  · simp [h]

structure Stored (s : RelayState) (records : List (MessageId × OriginRec)) : Prop where
  nodup : s.originsOrder.Nodup
  keys : s.originsOrder.Perm (s.origins.map Prod.fst)
  order : s.originsOrder = retained records
  value : ∀ e ∈ s.origins, lastRecorded records e.1 = some e.2

theorem Stored.any_iff {records : List (MessageId × OriginRec)} (h : Stored s records)
    (id : MessageId) : s.origins.any (·.1 = id) = true ↔ id ∈ s.originsOrder := by
  rw [h.keys.mem_iff, List.any_eq_true, List.mem_map]
  simp only [decide_eq_true_eq]

theorem Stored.originFor {records : List (MessageId × OriginRec)} (h : Stored s records)
    (id : MessageId) :
    s.originFor id = if id ∈ retained records then lastRecorded records id else none := by
  rw [← h.order, RelayState.originFor]
  cases hfind : s.origins.find? fun e => e.1 = id with
  | none =>
      have hnot : id ∉ s.originsOrder := by
        rw [← h.any_iff, List.any_eq_true]
        rintro ⟨e, he, hid⟩
        exact List.find?_eq_none.mp hfind e he hid
      rw [if_neg hnot]
      rfl
  | some e =>
      have hmem : e ∈ s.origins := List.mem_of_find?_eq_some hfind
      have hid : e.1 = id := by simpa using List.find?_some hfind
      have hin : id ∈ s.originsOrder := h.keys.mem_iff.mpr (List.mem_map.mpr ⟨e, hmem, hid⟩)
      rw [if_pos hin, ← hid, h.value e hmem]
      rfl

theorem Stored.evictOldest {records : List (MessageId × OriginRec)} (h : Stored s records) :
    s.evictOldest.originsOrder = s.originsOrder.tail ∧
      s.evictOldest.originsOrder.Perm (s.evictOldest.origins.map Prod.fst) := by
  unfold RelayState.evictOldest
  split
  next hnil => exact ⟨by rw [hnil]; rfl, h.keys⟩
  next oldest order horder =>
    refine ⟨by rw [horder]; rfl, ?_⟩
    have hnew : oldest ∉ order := (List.nodup_cons.mp (horder ▸ h.nodup)).1
    have hfilter : (oldest :: order).filter (· ≠ oldest) = order := by
      rw [List.filter_cons_of_neg (by simp)]
      refine List.filter_eq_self.mpr fun id hid => decide_eq_true ?_
      rintro rfl
      exact hnew hid
    have hperm := (horder ▸ h.keys).filter fun id => decide (id ≠ oldest)
    rw [hfilter, List.filter_map] at hperm
    exact hperm

theorem Stored.record {records : List (MessageId × OriginRec)} (h : Stored s records)
    (id : MessageId) (origin : OriginRec) :
    Stored (s.recordOrigin id origin.fromSession origin.isReply) (records ++ [(id, origin)]) := by
  unfold RelayState.recordOrigin
  dsimp only
  split
  next hin =>
    -- the value is replaced where it stands
    have hmem : id ∈ retained records := h.order ▸ (h.any_iff id).mp hin
    refine ⟨h.nodup, ?_, ?_, ?_⟩
    · have hsame : (s.origins.map fun e => if e.1 = id then (id, origin) else e).map Prod.fst =
          s.origins.map Prod.fst := by
        rw [List.map_map]
        refine List.map_congr_left fun e _ => ?_
        rw [Function.comp_apply]
        split
        next heq => exact heq.symm
        next => rfl
      exact hsame ▸ h.keys
    · rw [retained_snoc, if_pos hmem]
      exact h.order
    · intro e he
      obtain ⟨e', he', rfl⟩ := List.mem_map.mp he
      rw [lastRecorded_snoc]
      split
      next heq => exact if_pos rfl
      next hne => rw [if_neg (Ne.symm hne), h.value e' he']
  next hnot =>
    have hnew : id ∉ s.originsOrder := fun hin => hnot ((h.any_iff id).mpr hin)
    have hlength : s.origins.length = (retained records).length := by
      rw [← h.order, h.keys.length_eq, List.length_map]
    -- what is left when there is room
    have hroom : ∀ s' : RelayState, s'.originsOrder.Perm (s'.origins.map Prod.fst) →
        s'.originsOrder ⊆ s.originsOrder → s'.originsOrder.Nodup → s'.origins ⊆ s.origins →
        s'.originsOrder ++ [id] = retained (records ++ [(id, origin)]) →
        Stored { s' with
            origins := (id, origin) :: s'.origins
            originsOrder := s'.originsOrder ++ [id] }
          (records ++ [(id, origin)]) := by
      intro s' hkeys hsub hnodup horigins horder
      refine ⟨?_, ?_, horder, ?_⟩
      · refine List.nodup_append.mpr ⟨hnodup, List.nodup_singleton id, ?_⟩
        rintro a ha b hb rfl
        exact hnew (List.mem_singleton.mp hb ▸ hsub ha)
      · rw [List.map_cons]
        exact List.perm_append_singleton id _ |>.trans (hkeys.cons id)
      · intro e he
        rw [lastRecorded_snoc]
        rcases List.mem_cons.mp he with rfl | hold
        · exact if_pos rfl
        · have hne : id ≠ e.1 := by
            rintro rfl
            exact hnew (hsub (hkeys.mem_iff.mpr (List.mem_map_of_mem hold)))
          rw [if_neg hne, h.value e (horigins hold)]
    have hretained := retained_snoc records (id, origin)
    rw [if_neg (h.order ▸ hnew)] at hretained
    rw [hlength]
    split
    next hfull =>
      rw [if_pos hfull, ← h.order] at hretained
      obtain ⟨htail, hkeys⟩ := h.evictOldest
      have hsub : s.originsOrder.tail.Sublist s.originsOrder := List.tail_sublist _
      refine hroom _ hkeys ?_ ?_ (fun e he => RelayState.mem_of_mem_evictOldest he) ?_
      · rw [htail]
        exact hsub.subset
      · rw [htail]
        exact h.nodup.sublist hsub
      · rw [htail, hretained]
    next hfull =>
      rw [if_neg hfull, ← h.order] at hretained
      exact hroom s h.keys (List.Subset.refl _) h.nodup (List.Subset.refl _) hretained.symm

theorem Stored.frame {records : List (MessageId × OriginRec)} (h : Stored s records)
    (horigins : s'.origins = s.origins) (horder : s'.originsOrder = s.originsOrder) :
    Stored s' records :=
  ⟨horder ▸ h.nodup, horder ▸ horigins ▸ h.keys, horder ▸ h.order, horigins ▸ h.value⟩

theorem Stored.call {records : List (MessageId × OriginRec)} (h : Stored s records) (c : StateOp) :
    Stored (s.call c) (records ++ c.record?.toList) := by
  cases c with
  | recordOrigin id fromSession isReply => exact h.record id { fromSession, isReply }
  | peekResolved id now =>
      change Stored _ (records ++ [])
      rw [List.append_nil, RelayState.call, RelayState.peekResolved]
      split
      · exact h
      · split
        · exact h.frame rfl rfl
        · exact h
  | offerAck id written =>
      change Stored _ (records ++ [])
      rw [List.append_nil, RelayState.call, RelayState.offerAck]
      split
      · exact h.frame rfl rfl
      · exact h
  | _ =>
      change Stored _ (records ++ [])
      rw [List.append_nil]
      exact h.frame rfl rfl

theorem stored_run (seed : Nat) (calls : List StateOp) :
    Stored ((RelayState.withSeqSeed seed).run calls) (calls.filterMap StateOp.record?) := by
  induction calls using List.reverseRecOn with
  | nil => exact ⟨List.nodup_nil, .refl _, rfl, fun _ he => absurd he List.not_mem_nil⟩
  | append_singleton calls c ih =>
      have hstep := ih.call c
      rw [List.filterMap_append, RelayState.run, List.foldl_append]
      rwa [show [c].filterMap StateOp.record? = c.record?.toList by
        cases hc : c.record? <;> simp [hc]]

/-! ### Acks -/

theorem acks_call (h : ∀ id, (s.acks id).isSome → s.verifyOpen id = true) (c : StateOp) (id : MessageId) :
    ((s.call c).acks id).isSome → (s.call c).verifyOpen id = true := by
  cases c with
  | recordOrigin id' fromSession isReply =>
      obtain ⟨origins, originsOrder, heq⟩ := RelayState.recordOrigin_eq s id' fromSession isReply
      rw [RelayState.call, heq]
      exact h id
  | peekResolved id' now =>
      rw [RelayState.call, RelayState.peekResolved]
      split
      · exact h id
      · split <;> exact h id
  | markVerify id' =>
      intro hack
      rw [RelayState.call, RelayState.markVerify_verifyOpen, h id hack, ite_self]
  | offerAck id' written =>
      rw [RelayState.call, RelayState.offerAck]
      split
      next hopen =>
        by_cases heq : id = id'
        · exact fun _ => heq ▸ hopen
        · intro hack
          change (Function.update s.acks id' (some written) id).isSome = true at hack
          rw [Function.update_of_ne heq] at hack
          exact h id hack
      next => exact h id
  | takeAck id' =>
      intro hack
      refine h id ?_
      by_cases heq : id = id'
      · subst heq
        simp [RelayState.call, RelayState.takeAck] at hack
      · simpa [RelayState.call, RelayState.takeAck, heq] using hack
  | unmarkVerify id' =>
      rw [RelayState.call, RelayState.unmarkVerify_acks, RelayState.unmarkVerify_verifyOpen]
      split
      next => exact fun hack => by cases hack
      next => exact h id
  | _ => exact h id

theorem represents_run (seed : Nat) (calls : List StateOp) :
    Represents ((RelayState.withSeqSeed seed).run calls) calls := by
  have hstored := stored_run seed calls
  refine ⟨⟨hstored.nodup, hstored.keys⟩, hstored.order, hstored.originFor, ?_⟩
  induction calls using List.reverseRecOn with
  | nil => exact fun id hack => by cases hack
  | append_singleton calls c ih =>
      rw [RelayState.run, List.foldl_append]
      exact acks_call (ih (stored_run seed calls)) c

/-! ### Sweeps -/

def Agree (now : Nat) (s s' : RelayState) : Prop :=
  ∀ id t, now ≤ t → ((s.resolved id).filter fun e => t < e.deadline) =
    (s'.resolved id).filter fun e => t < e.deadline

theorem Agree.later {now now' : Nat} (h : Agree now s s') (hle : now ≤ now') : Agree now' s s' :=
  fun id t ht => h id t (hle.trans ht)

theorem peekResolved_eq (s : RelayState) (id : MessageId) (now : Nat) :
    (s.peekResolved id now).1 =
        ((s.resolved id).filter fun e => now < e.deadline).map ResolvedEntry.text ∧
      Agree now (s.peekResolved id now).2 s := by
  unfold RelayState.peekResolved
  cases hentry : s.resolved id with
  | none => exact ⟨rfl, fun _ _ _ => rfl⟩
  | some entry =>
      dsimp only
      split
      next hexpired =>
        refine ⟨by simp [Option.filter, Nat.not_lt.mpr hexpired], fun id' t ht => ?_⟩
        by_cases heq : id' = id
        · subst heq
          rw [hentry]
          simp [Option.filter, Nat.not_lt.mpr (hexpired.trans ht)]
        · simp only [Function.update_of_ne heq]
      next hlive => exact ⟨by simp [Option.filter, Nat.lt_of_not_le hlive], fun _ _ _ => rfl⟩

theorem agree_sweep (s : RelayState) (now : Nat) : Agree now (s.sweepExpired now) s := by
  intro id t ht
  change ((s.resolved id).filter fun e => now < e.deadline).filter (fun e => t < e.deadline) = _
  rw [Option.filter_filter]
  congr
  funext e
  rw [← Bool.decide_and, decide_eq_decide]
  omega

theorem Agree.symm {now : Nat} (h : Agree now s s') : Agree now s' s :=
  fun id t ht => (h id t ht).symm

theorem Agree.trans {now : Nat} {s'' : RelayState} (h : Agree now s s') (h' : Agree now s' s'') :
    Agree now s s'' :=
  fun id t ht => (h id t ht).trans (h' id t ht)

theorem Agree.of_resolved {now : Nat} (h : s.resolved = s'.resolved) : Agree now s s' :=
  fun _ _ _ => by rw [h]

theorem Agree.call {now : Nat} (h : Agree now s s') (c : StateOp) (hnow : ∀ t ∈ c.now?, now ≤ t) :
    s.peeked c = s'.peeked c ∧ Agree (c.now?.getD now) (s.call c) (s'.call c) := by
  cases c with
  | recordOrigin id fromSession isReply =>
      obtain ⟨_, _, heq⟩ := RelayState.recordOrigin_eq s id fromSession isReply
      obtain ⟨_, _, heq'⟩ := RelayState.recordOrigin_eq s' id fromSession isReply
      refine ⟨rfl, ?_⟩
      rw [RelayState.call, RelayState.call, heq, heq']
      exact h
  | bufferReply id text t =>
      refine ⟨rfl, fun id' t' ht' => ?_⟩
      rw [RelayState.call, RelayState.call, RelayState.bufferReply_resolved, RelayState.bufferReply_resolved]
      split
      · rfl
      · exact h id' t' ((hnow t rfl).trans ht')
  | peekResolved id t =>
      have hle : now ≤ t := hnow t rfl
      obtain ⟨hpeek, hafter⟩ := peekResolved_eq s id t
      obtain ⟨hpeek', hafter'⟩ := peekResolved_eq s' id t
      refine ⟨?_, hafter.trans ((h.later hle).trans hafter'.symm)⟩
      rw [RelayState.peeked, RelayState.peeked, hpeek, hpeek', h id t hle]
  | sweepExpired t =>
      have hle : now ≤ t := hnow t rfl
      exact ⟨rfl, (agree_sweep s t).trans ((h.later hle).trans (agree_sweep s' t).symm)⟩
  | offerAck id written =>
      refine ⟨rfl, ?_⟩
      rw [RelayState.call, RelayState.call, RelayState.offerAck, RelayState.offerAck]
      split <;> split <;> exact h
  | _ => exact ⟨rfl, h⟩

theorem peeks_filter {now : Nat} {calls : List StateOp} (h : Agree now s s') (htimed : Timed calls)
    (hnow : ∀ t ∈ calls.filterMap StateOp.now?, now ≤ t) :
    s.peeks calls = s'.peeks (calls.filter (!·.isSweep)) := by
  induction calls generalizing now s s' with
  | nil => rfl
  | cons c calls ih =>
      have hfirst : ∀ t ∈ c.now?, now ≤ t := by
        intro t ht
        exact hnow t (List.mem_filterMap.mpr ⟨c, List.mem_cons_self, ht⟩)
      have hrest : Timed calls := htimed.sublist ((List.sublist_cons_self c calls).filterMap _)
      have hlater : ∀ t ∈ calls.filterMap StateOp.now?, c.now?.getD now ≤ t := by
        intro t ht
        unfold Timed at htimed
        cases hc : c.now? with
        | none => exact hnow t (by rwa [List.filterMap_cons_none hc])
        | some t' =>
            rw [List.filterMap_cons_some hc] at htimed
            exact List.rel_of_pairwise_cons htimed ht
      obtain ⟨hpeek, hagree⟩ := h.call c hfirst
      cases hsweep : c.isSweep with
      | false =>
          rw [List.filter_cons_of_pos (by simp [hsweep]), RelayState.peeks, RelayState.peeks, hpeek,
            ih hagree hrest hlater]
      | true =>
          obtain ⟨t, rfl⟩ : ∃ t, c = .sweepExpired t := by
            cases c <;> first | exact ⟨_, rfl⟩ | cases hsweep
          rw [List.filter_cons_of_neg (by simp [hsweep])]
          exact ih ((agree_sweep s t).trans (h.later (hfirst t rfl))) hrest hlater

/-- **The state of a relay.** After any run the origins are the ids that were inserted last, in
that order and with what was recorded last, and there is no ack outside of a window; and runs
that differ in their sweeps only have the same peeks. -/
theorem relayState_run (seed : Nat) (calls : List StateOp) :
    Represents ((RelayState.withSeqSeed seed).run calls) calls ∧
      (Timed calls → ∀ calls', Timed calls' →
        calls'.filter (!·.isSweep) = calls.filter (!·.isSweep) →
        (RelayState.withSeqSeed seed).peeks calls' = (RelayState.withSeqSeed seed).peeks calls) := by
  refine ⟨represents_run seed calls, fun htimed calls' htimed' hsame => ?_⟩
  have hself : Agree 0 (RelayState.withSeqSeed seed) (RelayState.withSeqSeed seed) := .of_resolved rfl
  rw [peeks_filter hself htimed' fun t _ => Nat.zero_le t, hsame,
    ← peeks_filter hself htimed fun t _ => Nat.zero_le t]

/-- A sweep at the deadline, before the read that comes too late. -/
theorem relayState_run_deadline :
    (RelayState.withSeqSeed 0).peeks
        [.bufferReply ['a'] ['x'] 0, .peekResolved ['a'] 299999, .sweepExpired 300000,
          .peekResolved ['a'] 300000] =
      (RelayState.withSeqSeed 0).peeks
        [.bufferReply ['a'] ['x'] 0, .peekResolved ['a'] 299999, .peekResolved ['a'] 300000] :=
  (relayState_run 0 [.bufferReply ['a'] ['x'] 0, .peekResolved ['a'] 299999,
    .peekResolved ['a'] 300000]).2 (by decide) _ (by decide) (by decide)

end QuorumDispatch.Relay
