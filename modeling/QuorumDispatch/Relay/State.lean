import Mathlib.Logic.Function.Basic
import Mathlib.Data.List.Basic

/-!
The state of a relay server, which is shared by its threads under one lock, and the
decision on where a reply goes.

Texts and ids are lists of characters, instants and durations are in milliseconds. The
hash maps and sets that are only looked up are functions.
-/

namespace QuorumDispatch.Relay

abbrev Text := List Char

abbrev MessageId := Text

abbrev SessionId := Text

def maxTrackedOrigins : Nat := 2000

def resolvedTtl : Nat := 5 * 60 * 1000

def replyPrefix : Text := "[REPLY to ".toList

def isReplyText (text : Text) : Bool := replyPrefix.isPrefixOf text

def pushedText (id : MessageId) (text : Text) : Text := replyPrefix ++ id ++ "] ".toList ++ text

theorem isReplyText_pushedText (id : MessageId) (text : Text) :
    isReplyText (pushedText id text) = true := by
  simp [isReplyText, pushedText]

structure OriginRec where
  fromSession : SessionId
  isReply : Bool
deriving DecidableEq, Repr

/-- What is read off an inbox file; a field that is no string is absent. -/
structure InboxRecord where
  text : Option Text
  fromSession : Option SessionId
deriving DecidableEq, Repr

/-- There is no record if the file is absent or does not parse. -/
def originFromInbox (data : Option InboxRecord) : Option OriginRec := do
  let data ← data
  let fromSession ← data.fromSession
  some { fromSession, isReply := isReplyText (data.text.getD []) }

theorem originFromInbox_eq_some {data : Option InboxRecord} {origin : OriginRec}
    (h : originFromInbox data = some origin) :
    ∃ record, data = some record ∧ origin.isReply = isReplyText (record.text.getD []) := by
  obtain ⟨record, rfl, h⟩ := Option.bind_eq_some_iff.mp h
  obtain ⟨fromSession, -, h⟩ := Option.bind_eq_some_iff.mp h
  cases h
  exact ⟨record, rfl, rfl⟩

/-! ### Decisions -/

inductive DeliveryDecision where
  | resolveWaiter
  | loopPrevented
  | notAddressable (reason : Text)
  | pushBack (origin : SessionId)
  | noOrigin
deriving DecidableEq, Repr

def decideDelivery (waiterPresent : Bool) (origin : Option OriginRec) (own : SessionId) :
    DeliveryDecision :=
  if waiterPresent then .resolveWaiter
  else match origin with
    | none => .noOrigin
    | some origin =>
        if origin.isReply then .loopPrevented
        else if origin.fromSession = "unknown".toList ∨ origin.fromSession = "cli".toList then
          .notAddressable
            ("origin \"".toList ++ origin.fromSession ++ "\" is not an addressable session".toList)
        else if origin.fromSession = own then
          .notAddressable "origin is this session itself".toList
        else .pushBack origin.fromSession

theorem eq_true_of_decideDelivery {waiterPresent : Bool} {origin : Option OriginRec}
    {own : SessionId} (h : decideDelivery waiterPresent origin own = .resolveWaiter) :
    waiterPresent = true := by
  cases waiterPresent with
  | true => rfl
  | false =>
      revert h
      simp only [decideDelivery, Bool.false_eq_true, if_false]
      cases origin with
      | none => exact nofun
      | some origin =>
          dsimp only
          split_ifs <;> exact nofun

theorem isReply_of_pushBack {waiterPresent : Bool} {origin : Option OriginRec}
    {own dest : SessionId} (h : decideDelivery waiterPresent origin own = .pushBack dest) :
    ∃ r, origin = some r ∧ r.isReply = false ∧ r.fromSession = dest ∧ dest ≠ own := by
  cases waiterPresent with
  | true => cases h
  | false =>
      revert h
      simp only [decideDelivery, Bool.false_eq_true, if_false]
      cases origin with
      | none => exact nofun
      | some r =>
          intro h
          dsimp only at h
          split_ifs at h with hreply haddress hown
          cases h
          exact ⟨r, rfl, by simpa using hreply, rfl, hown⟩

/-! ### The state -/

structure ResolvedEntry where
  text : Text
  deadline : Nat
deriving DecidableEq, Repr

/-- `originsOrder` has the keys of `origins` in the order of their insertion. -/
structure RelayState where
  pending : MessageId → Bool := fun _ => false
  resolved : MessageId → Option ResolvedEntry := fun _ => none
  origins : List (MessageId × OriginRec) := []
  originsOrder : List MessageId := []
  verifyPending : MessageId → Bool := fun _ => false
  acks : MessageId → Option Bool := fun _ => none
  seq : Nat

namespace RelayState

def withSeqSeed (seed : Nat) : RelayState := { seq := seed }

def messageId (nowMs seq : Nat) : MessageId :=
  "relay-".toList ++ Nat.toDigits 10 nowMs ++ "-".toList ++ Nat.toDigits 10 seq

def mintMessageId (s : RelayState) (nowMs : Nat) : MessageId × RelayState :=
  (messageId nowMs (s.seq + 1), { s with seq := s.seq + 1 })

def evictOldest (s : RelayState) : RelayState :=
  match s.originsOrder with
  | [] => s
  | oldest :: order =>
      { s with origins := s.origins.filter fun e => e.1 ≠ oldest, originsOrder := order }

def recordOrigin (s : RelayState) (id : MessageId) (fromSession : SessionId) (isReply : Bool) :
    RelayState :=
  let origin : OriginRec := { fromSession, isReply }
  if s.origins.any fun e => e.1 = id then
    { s with origins := s.origins.map fun e => if e.1 = id then (id, origin) else e }
  else
    let s' := if maxTrackedOrigins ≤ s.origins.length then s.evictOldest else s
    { s' with origins := (id, origin) :: s'.origins, originsOrder := s'.originsOrder ++ [id] }

def originFor (s : RelayState) (id : MessageId) : Option OriginRec :=
  (s.origins.find? fun e => e.1 = id).map Prod.snd

def bufferReply (s : RelayState) (id : MessageId) (text : Text) (deadline : Nat) : RelayState :=
  { s with resolved := Function.update s.resolved id (some { text, deadline }) }

/-- The text of an entry that is not past its deadline; an entry that is gets evicted. -/
def peekResolved (s : RelayState) (id : MessageId) (now : Nat) : Option Text × RelayState :=
  match s.resolved id with
  | none => (none, s)
  | some entry =>
      if entry.deadline ≤ now then
        (none, { s with resolved := Function.update s.resolved id none })
      else (some entry.text, s)

def registerWaiter (s : RelayState) (id : MessageId) : RelayState :=
  { s with pending := Function.update s.pending id true }

def removeWaiter (s : RelayState) (id : MessageId) : RelayState :=
  { s with pending := Function.update s.pending id false }

def hasWaiter (s : RelayState) (id : MessageId) : Bool := s.pending id

def markVerify (s : RelayState) (id : MessageId) : RelayState :=
  { s with verifyPending := Function.update s.verifyPending id true }

def verifyOpen (s : RelayState) (id : MessageId) : Bool := s.verifyPending id

def offerAck (s : RelayState) (id : MessageId) (written : Bool) : RelayState :=
  if s.verifyPending id then { s with acks := Function.update s.acks id (some written) } else s

def takeAck (s : RelayState) (id : MessageId) : Option Bool × RelayState :=
  (s.acks id, { s with acks := Function.update s.acks id none })

def unmarkVerify (s : RelayState) (id : MessageId) : RelayState :=
  { s with
    verifyPending := Function.update s.verifyPending id false
    acks := Function.update s.acks id none }

variable {s : RelayState}

/-! ### The four cells of an id -/

section Cells

variable (s : RelayState) (id id' : MessageId)

theorem bufferReply_resolved (text : Text) (deadline : Nat) :
    (s.bufferReply id text deadline).resolved id' =
      if id' = id then some { text, deadline } else s.resolved id' :=
  Function.update_apply ..

theorem registerWaiter_hasWaiter :
    (s.registerWaiter id).hasWaiter id' = if id' = id then true else s.hasWaiter id' :=
  Function.update_apply ..

theorem removeWaiter_hasWaiter :
    (s.removeWaiter id).hasWaiter id' = if id' = id then false else s.hasWaiter id' :=
  Function.update_apply ..

theorem markVerify_verifyOpen :
    (s.markVerify id).verifyOpen id' = if id' = id then true else s.verifyOpen id' :=
  Function.update_apply ..

theorem unmarkVerify_verifyOpen :
    (s.unmarkVerify id).verifyOpen id' = if id' = id then false else s.verifyOpen id' :=
  Function.update_apply ..

theorem unmarkVerify_acks :
    (s.unmarkVerify id).acks id' = if id' = id then none else s.acks id' :=
  Function.update_apply ..

/-- A window that is closed after its ack was taken is closed as if it had not been. -/
theorem unmarkVerify_takeAck : (s.takeAck id).2.unmarkVerify id = s.unmarkVerify id := by
  simp [takeAck, unmarkVerify]

end Cells

/-! ### Minted ids -/

theorem toDigits_injective {m n : Nat} (h : Nat.toDigits 10 m = Nat.toDigits 10 n) : m = n :=
  calc
    m = Nat.ofDigitChars 10 (Nat.toDigits 10 m) 0 := Nat.ofDigitChars_ten_toDigits.symm
    _ = Nat.ofDigitChars 10 (Nat.toDigits 10 n) 0 := by rw [h]
    _ = n := Nat.ofDigitChars_ten_toDigits

theorem takeWhile_toDigits (n : Nat) (rest : Text) :
    (Nat.toDigits 10 n ++ '-' :: rest).takeWhile Char.isDigit = Nat.toDigits 10 n := by
  have hdigits : ∀ c ∈ Nat.toDigits 10 n, Char.isDigit c = true :=
    fun c hc => Nat.isDigit_of_mem_toDigits (by omega) (by omega) hc
  rw [List.takeWhile_append_of_pos hdigits, List.takeWhile_cons_of_neg (by decide),
    List.append_nil]

theorem messageId_inj {ms ms' n n' : Nat} (h : messageId ms n = messageId ms' n') :
    ms = ms' ∧ n = n' := by
  unfold messageId at h
  rw [List.append_assoc, List.append_assoc, List.append_assoc, List.append_assoc] at h
  have htail : Nat.toDigits 10 ms ++ '-' :: Nat.toDigits 10 n =
      Nat.toDigits 10 ms' ++ '-' :: Nat.toDigits 10 n' := List.append_cancel_left h
  have hms : Nat.toDigits 10 ms = Nat.toDigits 10 ms' := by
    rw [← takeWhile_toDigits ms, htail, takeWhile_toDigits]
  rw [hms] at htail
  have hn := (List.cons.inj (List.append_cancel_left htail)).2
  exact ⟨toDigits_injective hms, toDigits_injective hn⟩

/-! ### Origins -/

theorem mem_of_originFor {id : MessageId} {origin : OriginRec}
    (h : s.originFor id = some origin) : (id, origin) ∈ s.origins := by
  obtain ⟨e, he, rfl⟩ := Option.map_eq_some_iff.mp h
  have hid : e.1 = id := by simpa using List.find?_some he
  rw [← hid]
  exact List.mem_of_find?_eq_some he

theorem mem_of_mem_evictOldest {e : MessageId × OriginRec} (h : e ∈ s.evictOldest.origins) :
    e ∈ s.origins := by
  unfold evictOldest at h
  split at h
  · exact h
  · exact List.mem_of_mem_filter h

theorem recordOrigin_eq (s : RelayState) (id : MessageId) (fromSession : SessionId)
    (isReply : Bool) : ∃ origins originsOrder,
      s.recordOrigin id fromSession isReply = { s with origins, originsOrder } := by
  unfold recordOrigin evictOldest
  dsimp only
  split_ifs
  · exact ⟨_, _, rfl⟩
  · cases s.originsOrder with
    | nil => exact ⟨_, _, rfl⟩
    | cons oldest order => exact ⟨_, _, rfl⟩
  · exact ⟨_, _, rfl⟩

/-- What a record adds to the map is that record; what it evicts is gone. -/
theorem mem_of_mem_recordOrigin {id : MessageId} {fromSession : SessionId} {isReply : Bool}
    {e : MessageId × OriginRec} (h : e ∈ (s.recordOrigin id fromSession isReply).origins) :
    e = (id, { fromSession, isReply }) ∨ e ∈ s.origins := by
  unfold recordOrigin at h
  dsimp only at h
  split_ifs at h
  · obtain ⟨e', he', rfl⟩ := List.mem_map.mp h
    split_ifs
    · exact .inl rfl
    · exact .inr he'
  · exact (List.mem_cons.mp h).imp_right mem_of_mem_evictOldest
  · exact List.mem_cons.mp h

end RelayState

end QuorumDispatch.Relay
