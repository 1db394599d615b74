import QuorumDispatch.Pi.Rollout
import QuorumDispatch.Transcript.ReadSound

/-!
What a rollout says of a message. Its user records hold what was on the wire, in the sender
envelope or bare; a record is the record of one message only, as long as no message is an
envelope itself.
-/

namespace QuorumDispatch.Pi

open Lib Provider

def lineOf (serde : SerdeJson) (raw : List Char) : Option Json :=
  if (trim raw).isEmpty then none else serde.fromStr (trim raw)

def rolloutOf (serde : SerdeJson) (sessionJsonl : List Char) : Rollout :=
  (sessionJsonl.splitOn '\n').map (lineOf serde)

def userRecord (blocks : List Json) : Json :=
  .obj [("type", .str "message"), ("message", .obj [("role", .str "user"), ("content", .arr blocks)])]

structure Sent where
  message : List Char
  sender : List Char
deriving DecidableEq, Repr

/-- The line is a user record whose text blocks join to what the send wrote to the wire. -/
def Sent.Recorded (s : Sent) (line : Option Json) : Prop :=
  userText? line = some (attributed s.message s.sender)

instance (s : Sent) (line : Option Json) : Decidable (s.Recorded line) :=
  inferInstanceAs (Decidable (_ = _))

def Plain (text : List Char) : Prop := innerBody text = none

instance (text : List Char) : Decidable (Plain text) := inferInstanceAs (Decidable (_ = _))

section Landed

variable {sha256Hex : Bytes → String} {serde : SerdeJson} {sends : List Sent} {m : List Char} {line : Option Json}

theorem Sent.recorded_userRecord {s : Sent} {blocks : List Json} (hserde : serde.LawfulAt (userRecord blocks))
    (htext : contentText (.arr blocks) = attributed s.message s.sender) (hne : contentText (.arr blocks) ≠ []) :
    s.Recorded (lineOf serde (serde.toString (userRecord blocks))) := by
  rw [Recorded, lineOf, hserde.trim_toString, if_neg (by simp [hserde.toString_ne_nil]), hserde.fromStr_toString, ← htext]
  change (if (contentText (.arr blocks)).isEmpty then none else some (contentText (.arr blocks))) = _
  rw [if_neg (by simp [hne])]

/-- Hashes that do not collide find the same as the texts do. -/
theorem rolloutLanded_eq_carries (hsha : Function.Injective sha256Hex) (rollout : Rollout) :
    rolloutLanded sha256Hex rollout (sha256Hex (encodeUtf8 m)) = rollout.any (carries m) := by
  have hash (text : List Char) : (sha256Hex (encodeUtf8 text) == sha256Hex (encodeUtf8 m)) = (text == m) := by
    rw [Bool.eq_iff_iff, beq_iff_eq, beq_iff_eq]
    exact ⟨fun h => encodeUtf8_injective (hsha h), fun h => by rw [h]⟩
  have hbody (body : Option (List Char)) : (body.any (· == m)) = (body == some m) := by cases body <;> rfl
  simp only [rolloutLanded, hash, hbody]
  rfl

theorem Sent.Recorded.carries_iff {s : Sent} (h : s.Recorded line) (hs : Plain s.message) (hm : Plain m) :
    carries m line = true ↔ s.message = m := by
  rw [carries, h, Option.any_some, Bool.or_eq_true, beq_iff_eq, beq_iff_eq]
  cases haddr : isAddressable s.sender with
  | true =>
      rw [innerBody_attributed haddr, Option.some.injEq, or_iff_right]
      rintro rfl
      rw [Plain, innerBody_attributed haddr] at hm
      cases hm
  | false =>
      rw [attributed_of_not_addressable haddr, or_iff_left]
      intro hbody
      rw [Plain, hbody] at hs
      cases hs

/-- **A message has landed exactly if it was sent**, or a line that records no send shows it as well. -/
theorem rolloutLanded_iff (hsha : Function.Injective sha256Hex) {text : List Char}
    (hrecorded : ∀ s ∈ sends, ∃ raw ∈ text.splitOn '\n', s.Recorded (lineOf serde raw))
    (hsends : ∀ s ∈ sends, Plain s.message) (hm : Plain m) :
    rolloutLanded sha256Hex (rolloutOf serde text) (sha256Hex (encodeUtf8 m)) = true ↔
      (∃ s ∈ sends, s.message = m) ∨
        ∃ raw ∈ text.splitOn '\n', (∀ s ∈ sends, ¬s.Recorded (lineOf serde raw)) ∧
          carries m (lineOf serde raw) = true := by
  rw [rolloutLanded_eq_carries hsha, rolloutOf, List.any_map, List.any_eq_true]
  constructor
  · rintro ⟨raw, hraw, hcarries⟩
    by_cases hsent : ∃ s ∈ sends, s.Recorded (lineOf serde raw)
    · obtain ⟨s, hs, hrec⟩ := hsent
      exact .inl ⟨s, hs, (hrec.carries_iff (hsends s hs) hm).mp hcarries⟩
    · exact .inr ⟨raw, hraw, fun s hs hrec => hsent ⟨s, hs, hrec⟩, hcarries⟩
  · rintro (⟨s, hs, hmessage⟩ | ⟨raw, hraw, -, hcarries⟩)
    · obtain ⟨raw, hraw, hrec⟩ := hrecorded s hs
      exact ⟨raw, hraw, (hrec.carries_iff (hsends s hs) hm).mpr hmessage⟩
    · exact ⟨raw, hraw, hcarries⟩

def hiRecord : Json :=
  userRecord [.obj [("type", .str "text"), ("text", .str "<channel source=\"qd\" from_session=\"peer\">\nhi")],
    .obj [("type", .str "text"),
      ("text", .str "\n</channel>\n[reply: qd send:relay peer \"<your reply>\" | peers: qd ls]")]]

theorem rolloutLanded_hi :
    rolloutLanded Transcript.recordLib.sha256Hex (rolloutOf (.knowing [hiRecord]) hiRecord.compact)
      (Transcript.recordLib.sha256Hex (encodeUtf8 "hi".toList)) = true := by
  have hserde : (SerdeJson.knowing [hiRecord]).LawfulAt hiRecord := SerdeJson.lawfulAt_knowing_singleton rfl
  have hsplit : hiRecord.compact.splitOn '\n' = [hiRecord.compact] :=
    List.splitOn_eq_singleton hserde.oneLine
  have hrecorded : (⟨"hi".toList, "peer".toList⟩ : Sent).Recorded (lineOf (.knowing [hiRecord]) hiRecord.compact) :=
    Sent.recorded_userRecord hserde (by decide) (by decide)
  have hsent : ∀ s ∈ [(⟨"hi".toList, "peer".toList⟩ : Sent)], ∃ raw ∈ hiRecord.compact.splitOn '\n',
      s.Recorded (lineOf (.knowing [hiRecord]) raw) :=
    List.forall_mem_singleton.mpr ⟨_, by rw [hsplit]; exact List.mem_singleton_self _, hrecorded⟩
  exact (rolloutLanded_iff Transcript.recordLib_injective hsent (List.forall_mem_singleton.mpr (by decide))
    (by decide)).mpr (.inl ⟨_, List.mem_singleton_self _, rfl⟩)

end Landed

end QuorumDispatch.Pi
