import QuorumDispatch.Pty.Send

/-!
What one send does when it runs alone. It takes one snapshot, looks only behind it, and records
the message as seen at most once, after a poll that found it.
-/

namespace QuorumDispatch.Pty

open Lib DeliveryEvents
open Lib.Dialog hiding pure bind ask

def snapshot? : History → Option Nat
  | ⟨.fileLen, len⟩ :: _ => some (Option.getD len 0)
  | _ => none

def isSeen : Payload → Bool
  | .messageSeen .. => true
  | _ => false

def Query.seen : Query → Bool
  | .emit payload => isSeen payload
  | _ => false

/-- The rule by which a lane takes texts for the proof of a send. -/
def proves (p : PtyParams) (texts : List (List Char)) : Bool :=
  match p.action with
  | .sendQueue => texts.count p.message == 1
  | .sendVerify => texts.contains p.message

def Proven (p : PtyParams) (h : History) : Prop :=
  ∃ offset texts, (⟨.poll offset, .ok texts⟩ : Exchange Query Answer) ∈ h ∧ proves p texts = true

def Unseen (h : History) : Prop := ∀ e ∈ h, e.question.seen = false

def Permitted (p : PtyParams) (h : History) : Query → Prop
  | .fileLen => h = []
  | .poll offset | .reread offset => snapshot? h = some offset
  | .emit payload => isSeen payload = true → Proven p h ∧ Unseen h
  | _ => True

/-- Questions that look behind one offset and record nothing as seen. -/
def Plain (offset : Nat) : Query → Prop
  | .fileLen => False
  | .poll o | .reread o => o = offset
  | .emit payload => isSeen payload = false
  | _ => True

structure Ready (offset : Nat) (h : History) : Prop where
  snapshot : snapshot? h = some offset
  unseen : Unseen h

section Histories

variable {p : PtyParams} {offset : Nat} {h h' : History}

theorem snapshot?_append (hs : snapshot? h = some offset) (es : History) :
    snapshot? (h ++ es) = some offset := by
  rcases h with _ | ⟨⟨q, a⟩, h⟩
  · cases hs
  · cases q with
    | fileLen => exact hs
    | _ => cases hs

theorem Proven.append (hproven : Proven p h) (hpre : h <+: h') : Proven p h' := by
  obtain ⟨o, texts, hmem, htexts⟩ := hproven
  exact ⟨o, texts, hpre.subset hmem, htexts⟩

theorem Plain.seen {q : Query} (hq : Plain offset q) : q.seen = false := by
  cases q <;> first | rfl | exact hq

theorem Ready.since (hready : Ready offset h) (hsince : Since (Plain offset) h h') :
    Ready offset h' := by
  obtain ⟨es, rfl, hes⟩ := hsince
  refine ⟨snapshot?_append hready.snapshot es, fun e he => ?_⟩
  rcases List.mem_append.mp he with he | he
  · exact hready.unseen e he
  · exact (hes e he).seen

theorem Ready.permitted (hready : Ready offset h) {q : Query} (hq : Plain offset q) :
    Permitted p h q := by
  cases q with
  | fileLen => cases hq
  | poll o => cases hq; exact hready.snapshot
  | reread o => cases hq; exact hready.snapshot
  | emit payload =>
      intro hseen
      rw [show isSeen payload = false from hq] at hseen
      cases hseen
  | _ => trivial

theorem Ready.ensures {α : Type} {m : SendM α} (hready : Ready offset h) (honly : Only (Plain offset) m) :
    Ensures (Permitted p) h m fun _ h' => Since (Plain offset) h h' :=
  honly.ensures fun _ _ hsince hq => (hready.since hsince).permitted hq

end Histories

/-! ### The parts that ask plain questions -/

section Plain

variable {sha256Hex : Bytes → String} {p : PtyParams} {offset : Nat}

theorem only_sendChunks (chunks : List (List Char)) (acks : ChunkAcks) :
    Only (Plain offset) (sendChunks chunks acks) := by
  induction chunks generalizing acks with
  | nil => trivial
  | cons chunk rest ih =>
      refine Only.ite (fun _ => ?_) fun _ => ?_
      · exact .ask trivial fun _ => .ask trivial fun _ => ih _
      · exact .ask trivial fun _ => ih _

theorem only_twoWrite (message : List Char) : Only (Plain offset) (twoWrite message) :=
  Only.bind (only_sendChunks _ _) fun _ => .ask trivial fun _ => .ask trivial fun _ => trivial

theorem only_remediate : Only (Plain offset) (remediate p) := by
  refine .ask trivial fun held => Only.ite (fun _ => trivial) fun _ => ?_
  refine .ask trivial fun _ => .ask trivial fun _ => .ask trivial fun stuck => ?_
  exact Only.ite (fun _ => .ask rfl fun _ => trivial) fun _ => trivial

theorem only_deliverQueued : Only (Plain offset) (deliverQueued p) := by
  refine Only.bind (only_twoWrite _) fun acks => Only.ite (fun _ => trivial) fun _ => ?_
  refine .ask rfl fun _ => Only.bind only_remediate fun stuck => ?_
  exact Only.ite (fun _ => trivial) fun _ => trivial

theorem only_deliverIdle : Only (Plain offset) (deliverIdle p) := by
  refine Only.bind (only_twoWrite _) fun acks => ?_
  have hrest (accepted : Bool) : Only (Plain offset)
      (if acks.allOk = false then pure (.error (.writeFailed acks.acked acks.total))
      else do
        ask (.emit (chunksDelivered p acks))
        if !accepted && p.strict then return .error .notAccepted
        return .ok accepted : SendM (Except MuxPtyError Bool)) :=
    Only.ite (fun _ => trivial) fun _ => .ask rfl fun _ => Only.ite (fun _ => trivial) fun _ => trivial
  exact Only.ite (fun _ => .ask trivial hrest) fun _ => hrest true

theorem only_emitMismatch (expected recorded : Nat) :
    Only (Plain offset) (emitMismatch sha256Hex p offset expected recorded) :=
  .ask rfl fun _ => .ask rfl fun _ => trivial

theorem only_pollAgain {deadline : Int} {pollMs least : Nat} {gone : PayloadVerifyOutcome}
    {next : SendM PayloadVerifyOutcome} (hnext : Only (Plain offset) next) :
    Only (Plain offset) (pollAgain deadline pollMs least gone next) :=
  .ask trivial fun _ => Only.ite (fun _ => trivial) fun _ =>
    .ask trivial fun _ => .ask trivial fun _ => hnext

theorem only_verifyPoll (message : List Char) (deadline : Int) (pollMs polls : Nat)
    (lastRecords : Option (List (List Char))) (lastReason : Option String) :
    Only (Plain offset) (verifyPoll message offset deadline pollMs polls lastRecords lastReason) := by
  induction polls generalizing lastRecords lastReason with
  | zero => trivial
  | succ polls ih =>
      refine .ask rfl fun read => ?_
      cases read with
      | ok texts => exact Only.ite (fun _ => trivial) fun _ => only_pollAgain (ih _ _)
      | error reason => exact only_pollAgain (ih _ _)

theorem only_deferredPoll (message : List Char) (deadline : Int) (pollMs : Nat) (reason : String)
    (polls : Nat) (seen : DeferredSeen) :
    Only (Plain offset)
      (deferredPoll (pure (some offset)) message deadline pollMs reason polls seen) := by
  induction polls generalizing seen with
  | zero => trivial
  | succ polls ih =>
      refine .ask rfl fun read => ?_
      cases read with
      | ok texts => exact Only.ite (fun _ => trivial) fun _ => only_pollAgain (ih _)
      | error reason => exact only_pollAgain (ih _)

end Plain

/-! ### A verdict is proved by a poll -/

section Loops

variable {p : PtyParams} {offset : Nat} {h : History}

theorem Ready.ask {α : Type} {q : Query} {f : Answer q → SendM α} {post : α → History → Prop}
    (hready : Ready offset h) (hq : Plain offset q)
    (hf : ∀ a, Ready offset (h ++ [⟨q, a⟩]) → Ensures (Permitted p) (h ++ [⟨q, a⟩]) (f a) post) :
    Ensures (Permitted p) h (query q >>= f) post :=
  ⟨hready.permitted hq, fun a => hf a (hready.since (since_snoc hq))⟩

def Backed (p : PtyParams) (outcome : PayloadVerifyOutcome) (h : History) : Prop :=
  outcome = .verified → Proven p h

theorem backed_budgetEnd (message : List Char) (lastRecords : Option (List (List Char)))
    (lastReason : Option String) : Backed p (budgetEnd message lastRecords lastReason) h := by
  unfold budgetEnd
  intro hverified
  split at hverified
  · cases hverified
  · cases hverified
  · split at hverified <;> cases hverified

theorem backed_outcome (seen : DeferredSeen) (reason : String) :
    Backed p (seen.outcome reason) h := by
  unfold DeferredSeen.outcome
  intro hverified
  split at hverified <;> [cases hverified; split at hverified <;> cases hverified]

theorem ensures_pollAgain {deadline : Int} {pollMs least : Nat} {gone : PayloadVerifyOutcome}
    {next : SendM PayloadVerifyOutcome} (hready : Ready offset h)
    (hgone : ∀ h', Backed p gone h')
    (hnext : ∀ h', Ready offset h' → Ensures (Permitted p) h' next (Backed p)) :
    Ensures (Permitted p) h (pollAgain deadline pollMs least gone next) (Backed p) := by
  refine hready.ask trivial fun now hready => ?_
  by_cases hlate : deadline ≤ now
  · rw [if_pos hlate]
    exact hgone _
  · rw [if_neg hlate]
    exact hready.ask trivial fun _ hready => hready.ask trivial fun _ hready => hnext _ hready

theorem ensures_verifyPoll (hidle : p.action = .sendVerify) (deadline : Int) (pollMs polls : Nat)
    (lastRecords : Option (List (List Char))) (lastReason : Option String)
    (hready : Ready offset h) :
    Ensures (Permitted p) h
      (verifyPoll p.message offset deadline pollMs polls lastRecords lastReason) (Backed p) := by
  induction polls generalizing h lastRecords lastReason with
  | zero => exact backed_budgetEnd _ _ _
  | succ polls ih =>
      refine hready.ask rfl fun read hready => ?_
      cases read with
      | error reason => exact ensures_pollAgain hready (fun _ => backed_budgetEnd _ _ _) fun _ => ih _ _
      | ok texts =>
          cases hany : texts.any (· == p.message) with
          | false =>
              simp only [hany, Bool.false_eq_true, if_false]
              exact ensures_pollAgain hready (fun _ => backed_budgetEnd _ _ _) fun _ => ih _ _
          | true =>
              simp only [hany, if_true]
              intro _
              refine ⟨offset, texts, asked_snoc, ?_⟩
              simpa [proves, hidle] using hany

theorem ensures_deferredPoll (hqueued : p.action = .sendQueue) (deadline : Int) (pollMs : Nat)
    (reason : String) (polls : Nat) (seen : DeferredSeen) (hready : Ready offset h) :
    Ensures (Permitted p) h
      (deferredPoll (pure (some offset)) p.message deadline pollMs reason polls seen) (Backed p) := by
  induction polls generalizing h seen with
  | zero => exact backed_outcome _ _
  | succ polls ih =>
      refine hready.ask rfl fun read hready => ?_
      cases read with
      | error why => exact ensures_pollAgain hready (fun _ => backed_outcome _ _) fun _ => ih _
      | ok texts =>
          by_cases hone : texts.count p.message = 1
          · simp only [hone, if_true]
            intro _
            refine ⟨offset, texts, asked_snoc, ?_⟩
            simp [proves, hqueued, hone]
          · simp only [hone, if_false]
            exact ensures_pollAgain hready (fun _ => backed_outcome _ _) fun _ => ih _

end Loops

/-! ### The send -/

section Send

variable {sha256Hex : Bytes → String} {p : PtyParams} {offset : Nat} {h : History}

theorem ensures_messageSeen {r : Except MuxPtyError Unit} (hready : Ready offset h)
    (hproven : Proven p h) :
    Ensures (Permitted p) h (do ask (.emit (messageSeen sha256Hex p)); return r) fun _ _ => True :=
  ⟨fun _ => ⟨hproven, hready.unseen⟩, fun _ => trivial⟩

theorem ensures_concludeIdle (hready : Ready offset h) {outcome : PayloadVerifyOutcome}
    (hbacked : Backed p outcome h) :
    Ensures (Permitted p) h (concludeIdle sha256Hex p offset outcome) fun _ _ => True := by
  cases outcome with
  | verified => exact ensures_messageSeen hready (hbacked rfl)
  | truncated expected recorded =>
      have honly : Only (Plain offset) (concludeIdle sha256Hex p offset (.truncated expected recorded)) :=
        Only.ite (fun _ => Only.bind (only_emitMismatch ..) fun _ => trivial) fun _ => trivial
      exact (hready.ensures honly).mono fun _ _ _ _ => trivial
  | noRecord =>
      have honly : Only (Plain offset) (concludeIdle sha256Hex p offset .noRecord) :=
        Only.ite (fun _ => trivial) fun _ => trivial
      exact (hready.ensures honly).mono fun _ _ _ _ => trivial
  | _ => trivial

theorem ensures_concludeQueued (hready : Ready offset h) {outcome : PayloadVerifyOutcome}
    (hbacked : Backed p outcome h) :
    Ensures (Permitted p) h (concludeQueued sha256Hex p outcome) fun _ _ => True := by
  cases outcome with
  | verified => exact ensures_messageSeen hready (hbacked rfl)
  | _ => trivial

/-- **What one send may ask, it asks and nothing else**, whatever it is answered. -/
theorem sendMuxPty_ensures (p : PtyParams) :
    Ensures (Permitted p) [] (sendMuxPty sha256Hex p) fun _ _ => True := by
  refine ⟨rfl, fun len => ?_⟩
  have hready : Ready (Option.getD len 0) [(⟨.fileLen, len⟩ : Exchange Query Answer)] :=
    ⟨rfl, fun e he => by rw [List.mem_singleton.mp he]; rfl⟩
  refine hready.ask rfl fun _ hready => ?_
  cases haction : p.action with
  | sendQueue =>
      refine (hready.ensures only_deliverQueued).bind fun r h' _ hsince => ?_
      have hready := hready.since hsince
      cases r with
      | error e => trivial
      | ok =>
          refine hready.ask trivial fun now hready => ?_
          have hpoll := (ensures_deferredPoll haction (now + busyQueuedVerifyTimeoutS * 1000)
            verifyPollMs "busy-queued transcript never resolved within the deferred window" p.polls
            {} hready).since (only_deferredPoll ..)
          exact hpoll.bind fun outcome h'' _ hback =>
            ensures_concludeQueued (hready.since hback.2) hback.1
  | sendVerify =>
      refine (hready.ensures only_deliverIdle).bind fun r h' _ hsince => ?_
      have hready := hready.since hsince
      rcases r with e | _ | _
      · trivial
      · trivial
      · refine hready.ask trivial fun now hready => ?_
        have hpoll := (ensures_verifyPoll haction (now + verifyTimeoutS * 1000) verifyPollMs p.polls
          none none hready).since (only_verifyPoll ..)
        exact hpoll.bind fun outcome h'' _ hback =>
          ensures_concludeIdle (hready.since hback.2) hback.1

end Send

end QuorumDispatch.Pty
