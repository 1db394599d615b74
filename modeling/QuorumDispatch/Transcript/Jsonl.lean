import Mathlib.Data.List.TakeWhile
import QuorumDispatch.Lib.Json
import QuorumDispatch.Lib.Split

/-!
The transcript of a session as its readers see it: a line is a value, or nothing when it cannot be
read, and blank lines are none. A line counts before its newline is written.
-/

namespace QuorumDispatch.Transcript

open Lib

/-! ### Lines -/

/-- A line with its value, `null` when it has none. -/
structure ParsedLine where
  raw : List Char
  value : Json

/-- `l.trim().is_empty()`. -/
def isBlank (l : List Char) : Bool := (trim l).isEmpty

def parseLine (serde : SerdeJson) (l : List Char) : ParsedLine :=
  { raw := l, value := (serde.fromStr l).getD .null }

def parseJsonlSlice (serde : SerdeJson) (slice : List Char) : List ParsedLine :=
  ((slice.splitOn '\n').filter (!isBlank ·)).map (parseLine serde)

/-! ### Records -/

structure JsonlMessage where
  content : Option Json := none

structure JsonlRecord where
  type : Option String := none
  message : Option JsonlMessage := none

/-- An optional field of a typed record: missing, `null`, or as `read` has it. -/
def optional {α : Type} (read : Json → Option α) : Option Json → Option (Option α)
  | none | some .null => some none
  | some j => (read j).map some

/-- The typed reader takes an object by its keys and an array by its places. -/
def JsonlMessage.ofValue : Json → Option JsonlMessage
  | .obj entries => do
      let content ← optional some ((Json.obj entries).get "content")
      some { content }
  | .arr items => do
      let content ← optional some items[0]?
      if items.length ≤ 1 then some { content } else none
  | _ => none

def JsonlRecord.ofValue : Json → Option JsonlRecord
  | .obj entries => do
      let type ← optional Json.asStr ((Json.obj entries).get "type")
      let message ← optional JsonlMessage.ofValue ((Json.obj entries).get "message")
      some { type, message }
  | .arr items => do
      let type ← optional Json.asStr items[0]?
      let message ← optional JsonlMessage.ofValue items[1]?
      if items.length ≤ 2 then some { type, message } else none
  | _ => none

/-- `from_value(..).unwrap_or_default()`. -/
def recordView (value : Json) : JsonlRecord := (JsonlRecord.ofValue value).getD {}

def blockText (b : Json) : Option String :=
  if b.strField "type" = some "text" then b.strField "text" else none

def userRecordText (r : JsonlRecord) : Option String :=
  if r.type = some "user" then
    match r.message.bind (·.content) with
    | some (.str s) => some s
    | some (.arr items) => items.findSome? blockText
    | _ => none
  else none

def ParsedLine.userText (p : ParsedLine) : Option String := userRecordText (recordView p.value)

def findAnchor (lines : List ParsedLine) (message : String) : Option Nat :=
  lines.findIdx? fun p => p.userText == some message

/-! ### A transcript that grows -/

variable {serde : SerdeJson} {message : String}

theorem isBlank_iff {l : List Char} : isBlank l = true ↔ ∀ c ∈ l, isWhitespace c = true := by
  rw [isBlank, List.isEmpty_iff, trim, List.reverse_eq_nil_iff, List.dropWhile_eq_nil_iff]
  constructor
  · intro h
    apply List.dropWhile_eq_nil_iff.mp
    by_contra hne
    -- the first character that stays is not white space
    have hhead := List.head_dropWhile_not isWhitespace hne
    rw [h _ (List.mem_reverse.mpr (List.head_mem hne))] at hhead
    cases hhead
  · intro h c hc
    exact h c ((List.dropWhile_suffix _).subset (List.mem_reverse.mp hc))

theorem isBlank_append {l more : List Char} (h : isBlank l = false) : isBlank (l ++ more) = false := by
  rw [← Bool.not_eq_true, isBlank_iff] at h ⊢
  exact fun hall => h fun c hc => hall c (List.mem_append_left _ hc)

/-- The lines of before, the last of them perhaps longer now, and further ones. -/
def Extends (old new : List ParsedLine) : Prop :=
  ∀ front last, old = front ++ [last] → ∃ longer rest, new = front ++ longer :: rest ∧
    last.raw <+: longer.raw

theorem parseJsonlSlice_append (slice more : List Char) :
    Extends (parseJsonlSlice serde slice) (parseJsonlSlice serde (slice ++ more)) := by
  intro front last hold
  obtain ⟨closed, tail, hsplit, happend⟩ := exists_splitOn_append '\n' slice
  obtain ⟨first, others, hmore⟩ := List.exists_cons_of_ne_nil (List.splitOn_ne_nil '\n' more)
  rw [parseJsonlSlice, hsplit, List.filter_append, List.map_append] at hold
  rw [parseJsonlSlice, happend more first others hmore, List.filter_append, List.map_append]
  cases htail : isBlank tail with
  | true =>
      -- an open line that is blank does not count yet
      rw [List.filter_cons_of_neg (by simp [htail]), List.filter_nil, List.map_nil,
        List.append_nil] at hold
      rw [hold, List.append_assoc]
      exact ⟨last, _, rfl, List.prefix_refl _⟩
  | false =>
      rw [List.filter_cons_of_pos (by simp [htail]), List.filter_nil, List.map_singleton] at hold
      obtain ⟨rfl, hlast⟩ := List.append_inj' hold rfl
      rw [List.filter_cons_of_pos (by simp [isBlank_append htail]), List.map_cons]
      refine ⟨_, _, rfl, ?_⟩
      rw [← (List.cons.inj hlast).1]
      exact List.prefix_append _ _

theorem parseJsonlSlice_mono {slice slice' : List Char} (h : slice <+: slice') :
    Extends (parseJsonlSlice serde slice) (parseJsonlSlice serde slice') := by
  obtain ⟨more, rfl⟩ := h
  exact parseJsonlSlice_append slice more

theorem Extends.getElem? {old new : List ParsedLine} (h : Extends old new) {k : Nat} {p : ParsedLine}
    (hk : old[k]? = some p) :
    old.take k = new.take k ∧ ∃ p', new[k]? = some p' ∧ p.raw <+: p'.raw := by
  rcases List.eq_nil_or_concat old with rfl | ⟨front, last, hlast⟩
  · rw [List.getElem?_nil] at hk
    cases hk
  rw [List.concat_eq_append] at hlast
  subst hlast
  obtain ⟨longer, rest, rfl, hraw⟩ := h front last rfl
  by_cases hlt : k < front.length
  · rw [List.getElem?_append_left hlt] at hk
    refine ⟨?_, p, by rw [List.getElem?_append_left hlt, hk], List.prefix_refl _⟩
    rw [List.take_append_of_le_length hlt.le, List.take_append_of_le_length hlt.le]
  · have hlen : k < (front ++ [last]).length := (List.getElem?_eq_some_iff.mp hk).1
    obtain rfl : k = front.length := by
      rw [List.length_append, List.length_singleton] at hlen
      omega
    rw [List.getElem?_concat_length] at hk
    obtain rfl := Option.some.inj hk
    refine ⟨by rw [List.take_left, List.take_left], longer, ?_, hraw⟩
    rw [List.getElem?_append_right (le_refl _), Nat.sub_self, List.getElem?_cons_zero]

end QuorumDispatch.Transcript
