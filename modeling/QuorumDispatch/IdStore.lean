import QuorumDispatch.Lib.Json
import QuorumDispatch.Lib.TextFile
import Mathlib.Logic.Function.Basic

/-!
The store of stable session ids, `ids.jsonl`: an append-only list of mint, bind
and lineage events, folded first-wins in both directions. Every call reads and
folds the whole file under the lock and appends at most one line.

The fold only ever grows, so an id that a call returned stays with its session
for as long as the lines it was folded from stay lines. That is what an append
on a torn tail takes away: the line it writes and the torn one become a single
unreadable line. In a run whose appends all start on a line boundary the ids
are stable and unique.

Lowercasing is a parameter: all that is used of it is that it keeps the empty
text empty.
-/

namespace QuorumDispatch.IdStore

open Lib

def alphabet : List Char := "23456789abcdefghijkmnpqrstuvwxyz".toList

def idLen : Nat := 8

def maxMintRetries : Nat := 16

/-! ### The fold -/

/-- The maps that the calls read. `byId` holds every id ever seen; an unbound
mint holds its id with no session. -/
structure IdMap where
  byId : String → Option (Option String) := fun _ => none
  bySession : String → Option String := fun _ => none
  byParent : String → Option String := fun _ => none

/-- `entry(key).or_insert(value)`. -/
def orInsert {α : Type} (m : String → Option α) (key : String) (value : α) :
    String → Option α :=
  if (m key).isSome then m else Function.update m key (some value)

def foldMint (map : IdMap) (id session : String) : IdMap :=
  if id.isEmpty then map
  else if session.isEmpty then { map with byId := orInsert map.byId id none }
  else
    { map with
      byId := orInsert map.byId id (some session)
      bySession := orInsert map.bySession session id }

def foldBind (map : IdMap) (id session : String) : IdMap :=
  if id.isEmpty || session.isEmpty then map
  else if (map.bySession session).isSome then map
  else
    match map.byId id with
    | some none =>
        { map with
          byId := Function.update map.byId id (some (some session))
          bySession := Function.update map.bySession session (some id) }
    | _ => map

def foldLineage (map : IdMap) (session parent : String) : IdMap :=
  if session.isEmpty || parent.isEmpty then map
  else { map with byParent := orInsert map.byParent session parent }

def foldValue (map : IdMap) (v : Json) : IdMap :=
  let id := (v.strField "id").getD ""
  let session := (v.strField "session_id").getD ""
  match v.strField "event" with
  | some "mint" => foldMint map id session
  | some "bind" => foldBind map id session
  | some "lineage" => foldLineage map session ((v.strField "parent").getD "")
  | _ => map

def foldLine (serde : SerdeJson) (map : IdMap) (line : List Char) : IdMap :=
  let line := trim line
  if line.isEmpty then map
  else
    match serde.fromStr line with
    | none => map
    | some v => foldValue map v

def foldStr (serde : SerdeJson) (text : List Char) : IdMap :=
  (Lines.of '\n' text).segments.foldl (foldLine serde) {}

/-- The lock-free reader: a file that cannot be read as text folds to nothing. -/
def fold (serde : SerdeJson) (content : Bytes) : IdMap :=
  match decodeUtf8 content with
  | some text => foldStr serde text
  | none => {}

/-! ### The calls -/

inductive Call where
  | mintOrGet (session : String) (name : Option String)
  | mintUnbound (name : Option String)
  | bind (id session : String)
  | recordLineage (fork parent : String)
deriving DecidableEq, Repr

/-- A call with what its environment supplies: the timestamp, the answers of the
id generator, how many bytes of its line get out, and whether the process dies
before the call returns. -/
structure Request where
  call : Call
  ts : String
  gen : Nat → String
  cut : Nat
  dies : Bool

inductive BindOutcome where
  | bound
  | alreadyBoundSameId
  | sessionHasDifferentId (existing : String)
deriving DecidableEq, Repr

inductive Outcome where
  | id (id : String)
  | bind (outcome : BindOutcome)
  | recorded
deriving DecidableEq, Repr

inductive IdError where
  | emptySession
  | emptyLineage
  | unreadable
  | collisions
  | invalidId (id : String)
  | unknownId (id : String)
  | boundElsewhere (id other : String)
  | appendFailed
deriving DecidableEq, Repr

/-- `str::to_lowercase`. -/
structure Lowercase where
  apply : String → String
  apply_empty : apply "" = ""

section Calls

variable (lower : Lowercase)

def isValidId (s : String) : Bool :=
  let folded := (lower.apply s).toList
  folded.length == idLen && folded.all (alphabet.contains ·)

/-- The regeneration loop: the first of the generator's next `left` answers that
no line has used. -/
def firstFresh (map : IdMap) (gen : Nat → String) : Nat → Nat → Option String
  | 0, _ => none
  | left + 1, tries =>
      if (map.byId (gen tries)).isSome then firstFresh map gen left (tries + 1)
      else some (gen tries)

def generateFreshId (map : IdMap) (gen : Nat → String) : Except IdError String :=
  match firstFresh map gen maxMintRetries 0 with
  | none => .error .collisions
  | some id => if isValidId lower id then .ok id else .error (.invalidId id)

def nameValue (name : Option String) : Json :=
  match name with
  | some s => .str s
  | none => .null

def mintEvent (ts id : String) (session : Json) (name : Option String) : Json :=
  .obj [("v", .num 1), ("ts", .str ts), ("event", .str "mint"), ("id", .str id),
    ("session_id", session), ("name", nameValue name)]

def bindEvent (ts id session : String) : Json :=
  .obj [("v", .num 1), ("ts", .str ts), ("event", .str "bind"), ("id", .str id),
    ("session_id", .str session)]

def lineageEvent (ts fork parent : String) : Json :=
  .obj [("v", .num 1), ("ts", .str ts), ("event", .str "lineage"), ("session_id", .str fork),
    ("parent", .str parent)]

def refused : Call → Option IdError
  | .mintOrGet session _ => if session.isEmpty then some .emptySession else none
  | .mintUnbound _ => none
  | .bind _ session => if session.isEmpty then some .emptySession else none
  | .recordLineage fork parent =>
      if fork.isEmpty || parent.isEmpty then some .emptyLineage else none

/-- What a call does once it holds the lock and has folded the file: the event
it appends, if any, and what it returns after that. -/
def respond (map : IdMap) (q : Request) : Except IdError (Option Json × Outcome) :=
  match q.call with
  | .mintOrGet session name =>
      match map.bySession session with
      | some existing => .ok (none, .id existing)
      | none => do
          let id ← generateFreshId lower map q.gen
          return (some (mintEvent q.ts id (.str session) name), .id id)
  | .mintUnbound name => do
      let id ← generateFreshId lower map q.gen
      return (some (mintEvent q.ts id .null name), .id id)
  | .bind id session =>
      let id := lower.apply id
      match map.bySession session with
      | some existing =>
          if existing = id then .ok (none, .bind .alreadyBoundSameId)
          else .ok (none, .bind (.sessionHasDifferentId existing))
      | none =>
          match map.byId id with
          | none => .error (.unknownId id)
          | some (some other) => .error (.boundElsewhere id other)
          | some none => .ok (some (bindEvent q.ts id session), .bind .bound)
  | .recordLineage fork parent =>
      if (map.byParent fork).isSome then .ok (none, .recorded)
      else .ok (some (lineageEvent q.ts fork parent), .recorded)

variable (serde : SerdeJson)

/-- What a call comes to on a file, were its line written whole. -/
def resolve (content : Bytes) (q : Request) : Except IdError (Option Json × Outcome) :=
  match refused q.call with
  | some e => .error e
  | none =>
      match decodeUtf8 content with
      | none => .error .unreadable
      | some text => respond lower (foldStr serde text) q

def appended (content : Bytes) (q : Request) : Option Json :=
  match resolve lower serde content q with
  | .ok (event, _) => event
  | .error _ => none

def step (content : Bytes) (q : Request) : Bytes :=
  match appended lower serde content q with
  | some event => writeLine content (serde.toString event) q.cut
  | none => content

def answer (content : Bytes) (q : Request) : Option (Except IdError Outcome) :=
  if q.dies then none
  else
    match resolve lower serde content q with
    | .error e => some (.error e)
    | .ok (none, out) => some (.ok out)
    | .ok (some event, out) =>
        if Whole (serde.toString event) q.cut then some (.ok out)
        else some (.error .appendFailed)

def storeAfter (run : List Request) : Bytes :=
  run.foldl (step lower serde) []

end Calls

variable {lower : Lowercase} {serde : SerdeJson} {map : IdMap} {q : Request}
  {content : Bytes} {text : List Char}

/-! ### What a call can do -/

theorem firstFresh_notMem {gen : Nat → String} {left tries : Nat} {id : String}
    (h : firstFresh map gen left tries = some id) : map.byId id = none := by
  induction left generalizing tries with
  | zero => cases h
  | succ left ih =>
      rw [firstFresh] at h
      split at h
      · exact ih h
      · next hfresh =>
          obtain rfl := Option.some.inj h
          simpa using hfresh

theorem generateFreshId_fresh {gen : Nat → String} {id : String}
    (h : generateFreshId lower map gen = .ok id) : map.byId id = none ∧ id ≠ "" := by
  unfold generateFreshId at h
  split at h
  · cases h
  · next fresh hfresh =>
      split at h
      · next hvalid =>
          obtain rfl := Except.ok.inj h
          refine ⟨firstFresh_notMem hfresh, ?_⟩
          rintro rfl
          simp [isValidId, lower.apply_empty, idLen] at hvalid
      · cases h

inductive Resolved (lower : Lowercase) (map : IdMap) (q : Request) :
    Option Json → Outcome → Prop where
  | known (session : String) (name : Option String) (id : String)
      (hcall : q.call = .mintOrGet session name) (hknown : map.bySession session = some id) :
      Resolved lower map q none (.id id)
  | minted (session : String) (name : Option String) (id : String)
      (hcall : q.call = .mintOrGet session name) (hsession : session ≠ "")
      (hnew : map.bySession session = none) (hfresh : map.byId id = none) (hid : id ≠ "") :
      Resolved lower map q (some (mintEvent q.ts id (.str session) name)) (.id id)
  | reserved (name : Option String) (id : String) (hcall : q.call = .mintUnbound name)
      (hfresh : map.byId id = none) (hid : id ≠ "") :
      Resolved lower map q (some (mintEvent q.ts id .null name)) (.id id)
  | rebound (id session : String) (outcome : BindOutcome) (hcall : q.call = .bind id session)
      (hout : outcome ≠ .bound) : Resolved lower map q none (.bind outcome)
  | bound (id session : String) (hcall : q.call = .bind id session) (hsession : session ≠ "")
      (hnew : map.bySession session = none) (hopen : map.byId (lower.apply id) = some none) :
      Resolved lower map q (some (bindEvent q.ts (lower.apply id) session)) (.bind .bound)
  | lineageKnown (fork parent : String) (hcall : q.call = .recordLineage fork parent) :
      Resolved lower map q none .recorded
  | lineage (fork parent : String) (hcall : q.call = .recordLineage fork parent) :
      Resolved lower map q (some (lineageEvent q.ts fork parent)) .recorded

theorem resolved_of_respond {event : Option Json} {out : Outcome}
    (hopen : refused q.call = none) (h : respond lower map q = .ok (event, out)) :
    Resolved lower map q event out := by
  unfold respond at h
  cases hcall : q.call with
  | mintOrGet session name =>
      have hsession : session ≠ "" := by
        rintro rfl
        simp [hcall, refused] at hopen
      simp only [hcall] at h
      split at h
      · next existing hknown =>
          obtain ⟨rfl, rfl⟩ := Prod.mk.inj (Except.ok.inj h)
          exact .known session name existing hcall hknown
      · next hnew =>
          cases hgen : generateFreshId lower map q.gen with
          | error e => rw [hgen] at h; cases h
          | ok id =>
              rw [hgen] at h
              obtain ⟨rfl, rfl⟩ := Prod.mk.inj (Except.ok.inj h)
              obtain ⟨hfresh, hid⟩ := generateFreshId_fresh hgen
              exact .minted session name id hcall hsession hnew hfresh hid
  | mintUnbound name =>
      simp only [hcall] at h
      cases hgen : generateFreshId lower map q.gen with
      | error e => rw [hgen] at h; cases h
      | ok id =>
          rw [hgen] at h
          obtain ⟨rfl, rfl⟩ := Prod.mk.inj (Except.ok.inj h)
          obtain ⟨hfresh, hid⟩ := generateFreshId_fresh hgen
          exact .reserved name id hcall hfresh hid
  | bind id session =>
      have hsession : session ≠ "" := by
        rintro rfl
        simp [hcall, refused] at hopen
      simp only [hcall] at h
      split at h
      · split at h
        · obtain ⟨rfl, rfl⟩ := Prod.mk.inj (Except.ok.inj h)
          exact .rebound id session _ hcall (by simp)
        · obtain ⟨rfl, rfl⟩ := Prod.mk.inj (Except.ok.inj h)
          exact .rebound id session _ hcall (by simp)
      · next hnew =>
          split at h
          · cases h
          · cases h
          · next hslot =>
              obtain ⟨rfl, rfl⟩ := Prod.mk.inj (Except.ok.inj h)
              exact .bound id session hcall hsession hnew hslot
  | recordLineage fork parent =>
      simp only [hcall] at h
      split at h
      · obtain ⟨rfl, rfl⟩ := Prod.mk.inj (Except.ok.inj h)
        exact .lineageKnown fork parent hcall
      · obtain ⟨rfl, rfl⟩ := Prod.mk.inj (Except.ok.inj h)
        exact .lineage fork parent hcall

theorem resolved_of_resolve {event : Option Json} {out : Outcome}
    (h : resolve lower serde content q = .ok (event, out)) :
    refused q.call = none ∧ ∃ text, decodeUtf8 content = some text ∧
      Resolved lower (foldStr serde text) q event out := by
  unfold resolve at h
  split at h
  · cases h
  · next hopen =>
      split at h
      · cases h
      · next text htext => exact ⟨hopen, text, htext, resolved_of_respond hopen h⟩

/-! ### What a line does to the maps -/

theorem orInsert_of_some {α : Type} {m : String → Option α} {key k : String} {value v : α}
    (h : m k = some v) : orInsert m key value k = some v := by
  unfold orInsert
  split
  · exact h
  · next hnone =>
      rw [Function.update_of_ne, h]
      rintro rfl
      simp [h] at hnone

theorem orInsert_self {α : Type} {m : String → Option α} {key : String} {value : α}
    (h : m key = none) : orInsert m key value = Function.update m key (some value) := by
  simp [orInsert, h]

/-- The maps only grow: a session keeps its id and a used id stays used. -/
structure Extends (m m' : IdMap) : Prop where
  bySession : ∀ s id, m.bySession s = some id → m'.bySession s = some id
  byId : ∀ id, m.byId id ≠ none → m'.byId id ≠ none

theorem Extends.refl (m : IdMap) : Extends m m := ⟨fun _ _ h => h, fun _ h => h⟩

theorem Extends.trans {m₁ m₂ m₃ : IdMap} (h₁ : Extends m₁ m₂) (h₂ : Extends m₂ m₃) :
    Extends m₁ m₃ :=
  ⟨fun s id h => h₂.bySession s id (h₁.bySession s id h), fun id h => h₂.byId id (h₁.byId id h)⟩

theorem orInsert_ne_none {α : Type} {m : String → Option α} {key k : String} {value : α}
    (h : m k ≠ none) : orInsert m key value k ≠ none := by
  obtain ⟨v, hv⟩ := Option.ne_none_iff_exists'.mp h
  simp [orInsert_of_some hv]

theorem foldMint_extends (map : IdMap) (id session : String) :
    Extends map (foldMint map id session) := by
  unfold foldMint
  split
  · exact .refl map
  · split
    · exact ⟨fun s id h => h, fun id h => orInsert_ne_none h⟩
    · exact ⟨fun s id h => orInsert_of_some h, fun id h => orInsert_ne_none h⟩

theorem foldBind_extends (map : IdMap) (id session : String) :
    Extends map (foldBind map id session) := by
  unfold foldBind
  split
  · exact .refl map
  · split
    · exact .refl map
    · next hnew =>
        split
        · refine ⟨fun s x h => ?_, fun x h => ?_⟩
          · have hne : s ≠ session := by
              rintro rfl
              simp [h] at hnew
            simpa [Function.update_of_ne hne] using h
          · by_cases hx : x = id
            · simp [hx]
            · simpa [Function.update_of_ne hx] using h
        · exact .refl map

theorem foldLineage_extends (map : IdMap) (session parent : String) :
    Extends map (foldLineage map session parent) := by
  unfold foldLineage
  split
  · exact .refl map
  · exact ⟨fun _ _ h => h, fun _ h => h⟩

theorem foldValue_extends (map : IdMap) (v : Json) : Extends map (foldValue map v) := by
  unfold foldValue
  split
  · exact foldMint_extends map _ _
  · exact foldBind_extends map _ _
  · exact foldLineage_extends map _ _
  · exact .refl map

structure Sound (m : IdMap) : Prop where
  agree : ∀ s id, m.bySession s = some id → m.byId id = some (some s)
  empty : m.byId "" = none

theorem foldValue_mintEvent {ts id : String} {session : Json} {name : Option String} :
    foldValue map (mintEvent ts id session name) =
      foldMint map id (session.asStr.getD "") := by
  simp [foldValue, mintEvent, Json.strField, Json.get_obj_cons, Json.asStr]

theorem foldValue_bindEvent {ts id session : String} :
    foldValue map (bindEvent ts id session) = foldBind map id session := by
  simp [foldValue, bindEvent, Json.strField, Json.get_obj_cons, Json.asStr]

theorem foldValue_lineageEvent {ts fork parent : String} :
    foldValue map (lineageEvent ts fork parent) = foldLineage map fork parent := by
  simp [foldValue, lineageEvent, Json.strField, Json.get_obj_cons, Json.asStr]

theorem foldMint_fresh {id session : String} (hid : id ≠ "") (hsession : session ≠ "")
    (hfresh : map.byId id = none) (hnew : map.bySession session = none) :
    foldMint map id session =
      { map with
        byId := Function.update map.byId id (some (some session))
        bySession := Function.update map.bySession session (some id) } := by
  simp [foldMint, hid, hsession, orInsert_self hfresh, orInsert_self hnew]

theorem foldMint_reserved {id : String} (hid : id ≠ "") (hfresh : map.byId id = none) :
    foldMint map id "" = { map with byId := Function.update map.byId id (some none) } := by
  simp [foldMint, hid, orInsert_self hfresh]

theorem foldBind_open {id session : String} (hid : id ≠ "") (hsession : session ≠ "")
    (hnew : map.bySession session = none) (hopen : map.byId id = some none) :
    foldBind map id session =
      { map with
        byId := Function.update map.byId id (some (some session))
        bySession := Function.update map.bySession session (some id) } := by
  simp [foldBind, hid, hsession, hnew, hopen]

theorem Sound.assign {id session : String} (h : Sound map) (hid : id ≠ "")
    (hunbound : ∀ s, map.byId id ≠ some (some s)) :
    Sound { map with
      byId := Function.update map.byId id (some (some session))
      bySession := Function.update map.bySession session (some id) } := by
  refine ⟨?_, ?_⟩
  · intro s x hs
    by_cases hsession : s = session
    · subst hsession
      obtain rfl : id = x := by simpa using hs
      simp
    · have hold : map.bySession s = some x := by
        simpa [Function.update_of_ne hsession] using hs
      have hx : x ≠ id := by
        rintro rfl
        exact hunbound s (h.agree s x hold)
      simpa [Function.update_of_ne hx] using h.agree s x hold
  · simpa [Function.update_of_ne (Ne.symm hid)] using h.empty

theorem Sound.foldValue {event : Json} {out : Outcome} (h : Sound map)
    (hres : Resolved lower map q (some event) out) : Sound (foldValue map event) := by
  cases hres with
  | minted session name id hcall hsession hnew hfresh hid =>
      rw [foldValue_mintEvent, Json.asStr, Option.getD_some,
        foldMint_fresh hid hsession hfresh hnew]
      exact h.assign hid (by simp [hfresh])
  | reserved name id hcall hfresh hid =>
      have hnull : Json.null.asStr.getD "" = "" := rfl
      rw [foldValue_mintEvent, hnull, foldMint_reserved hid hfresh]
      refine ⟨fun s x hs => ?_, ?_⟩
      · have hx : x ≠ id := by
          rintro rfl
          have hagree := h.agree s x hs
          rw [hfresh] at hagree
          cases hagree
        simpa [Function.update_of_ne hx] using h.agree s x hs
      · simpa [Function.update_of_ne (Ne.symm hid)] using h.empty
  | bound id session hcall hsession hnew hopen =>
      have hid : lower.apply id ≠ "" := by
        intro heq
        rw [heq, h.empty] at hopen
        cases hopen
      rw [foldValue_bindEvent, foldBind_open hid hsession hnew hopen]
      exact h.assign hid (by simp [hopen])
  | lineage fork parent hcall =>
      rw [foldValue_lineageEvent]
      unfold foldLineage
      split
      · exact h
      · exact ⟨h.agree, h.empty⟩

/-! ### What a call leaves in the file -/

def CutBetweenChars (line : List Char) (cut : Nat) : Prop :=
  ∃ k, (encodeUtf8 (line ++ ['\n'])).take cut = encodeUtf8 ((line ++ ['\n']).take k)

theorem foldLine_whole {event : Json} (hlaw : serde.LawfulAt event) :
    foldLine serde map (serde.toString event) = foldValue map event := by
  simp [foldLine, hlaw.trim_toString, hlaw.toString_ne_nil, hlaw.fromStr_toString]

theorem foldLine_torn {event : Json} (hlaw : serde.LawfulAt event) {p : List Char}
    (hp : p <+: serde.toString event) (hne : p ≠ serde.toString event) :
    foldLine serde map p = map := by
  have hhead : ∀ c, p.head? = some c → isWhitespace c = false := by
    intro c hc
    have hopen := hlaw.opens
    obtain ⟨rest, hrest⟩ := hp
    rw [← hrest, List.head?_append, hc, Option.some_or] at hopen
    obtain rfl := Option.some.inj hopen
    decide
  have htrim : trim p <+: p := trim_isPrefix hhead
  have hshort : trim p ≠ serde.toString event := by
    intro heq
    have hlen := htrim.length_le
    rw [heq] at hlen
    exact hne (hp.eq_of_length (Nat.le_antisymm hp.length_le hlen))
  have hread : serde.fromStr (trim p) = none :=
    hlaw.truncated _ (encodeUtf8_mono (htrim.trans hp))
      (fun heq => hshort (encodeUtf8_injective heq))
  simp [foldLine, hread]

theorem foldStr_of_tail_nil (htail : (Lines.of '\n' text).tail = []) :
    foldStr serde text = (Lines.of '\n' text).terminated.foldl (foldLine serde) {} := by
  simp [foldStr, Lines.segments, htail]

theorem foldStr_writeLine {event : Json} {cut : Nat} (hlaw : serde.LawfulAt event)
    (hat : AtLineBoundary content) (htext : decodeUtf8 content = some text)
    (hcut : CutBetweenChars (serde.toString event) cut) :
    ∃ text', decodeUtf8 (writeLine content (serde.toString event) cut) = some text' ∧
      (foldStr serde text' = foldStr serde text ∨
        foldStr serde text' = foldValue (foldStr serde text) event) ∧
      (Whole (serde.toString event) cut →
        foldStr serde text' = foldValue (foldStr serde text) event) := by
  have htail := tail_of_atLineBoundary hat htext
  have hbase : foldStr serde text = _ := foldStr_of_tail_nil htail
  by_cases hwhole : Whole (serde.toString event) cut
  · have hfold : foldStr serde (text ++ (serde.toString event ++ ['\n'])) =
        foldValue (foldStr serde text) event := by
      rw [foldStr, lines_writeLine hlaw.oneLine htail, Lines.segments_nil_tail,
        List.foldl_append, ← hbase]
      exact foldLine_whole hlaw
    exact ⟨_, decodeUtf8_writeLine htext hwhole, .inr hfold, fun _ => hfold⟩
  · obtain ⟨k, hk⟩ := hcut
    have hpart : (serde.toString event ++ ['\n']).take k = (serde.toString event).take k := by
      apply List.take_append_of_le_length
      apply Nat.le_of_not_lt
      intro hlt
      -- all characters out would be all bytes out
      apply hwhole
      have hall : (serde.toString event ++ ['\n']).take k = serde.toString event ++ ['\n'] :=
        List.take_of_length_le (by rw [List.length_append, List.length_singleton]; exact hlt)
      have hlen := congrArg List.length hk
      rw [hall] at hlen
      simp only [List.length_take, encodeUtf8_append, encodeUtf8_newline, List.length_append,
        List.length_singleton] at hlen
      unfold Whole
      omega
    have hnl : '\n' ∉ (serde.toString event).take k :=
      fun hmem => hlaw.oneLine (List.mem_of_mem_take hmem)
    have hdecode : decodeUtf8 (writeLine content (serde.toString event) cut) =
        some (text ++ (serde.toString event).take k) := by
      rw [writeLine, hk, hpart, decodeUtf8_append_encodeUtf8 htext]
    have hlines : Lines.of '\n' (text ++ (serde.toString event).take k) =
        ⟨(Lines.of '\n' text).terminated, (serde.toString event).take k⟩ := by
      rw [Lines.of_append, Lines.extend_of_notMem hnl, htail]
      rfl
    refine ⟨_, hdecode, ?_, fun h => absurd h hwhole⟩
    rw [foldStr, hlines, Lines.segments]
    split
    · left
      rw [List.append_nil, ← hbase]
    · rw [List.foldl_append, ← hbase]
      by_cases hfull : (serde.toString event).take k = serde.toString event
      · right
        simp only [hfull, List.foldl_cons, List.foldl_nil]
        exact foldLine_whole hlaw
      · left
        exact foldLine_torn hlaw (List.take_prefix _ _) hfull

/-- The condition on one call: if it appends, it finds the file on a line
boundary and is not cut inside a character. -/
def CleanCall (lower : Lowercase) (serde : SerdeJson) (content : Bytes) (q : Request) : Prop :=
  ∀ event, appended lower serde content q = some event →
    AtLineBoundary content ∧ CutBetweenChars (serde.toString event) q.cut

def LawfulCall (lower : Lowercase) (serde : SerdeJson) (content : Bytes) (q : Request) : Prop :=
  ∀ event, appended lower serde content q = some event → serde.LawfulAt event

theorem appended_of_resolve {event : Option Json} {out : Outcome}
    (h : resolve lower serde content q = .ok (event, out)) :
    appended lower serde content q = event := by
  simp [appended, h]

theorem resolve_of_appended {event : Json} (h : appended lower serde content q = some event) :
    ∃ out, resolve lower serde content q = .ok (some event, out) := by
  unfold appended at h
  split at h
  · next event' out hres =>
      subst h
      exact ⟨out, hres⟩
  · cases h

theorem step_keeps (hlaw : LawfulCall lower serde content q)
    (hclean : CleanCall lower serde content q) (htext : decodeUtf8 content = some text)
    (hsound : Sound (foldStr serde text)) :
    ∃ text', decodeUtf8 (step lower serde content q) = some text' ∧
      Sound (foldStr serde text') ∧ Extends (foldStr serde text) (foldStr serde text') := by
  unfold step
  split
  · next event hevent =>
      obtain ⟨hat, hcut⟩ := hclean event hevent
      obtain ⟨text', htext', hfold, -⟩ :=
        foldStr_writeLine (hlaw event hevent) hat htext hcut
      obtain ⟨out, hres⟩ := resolve_of_appended hevent
      obtain ⟨-, t, ht, hresolved⟩ := resolved_of_resolve hres
      obtain rfl : text = t := Option.some.inj (htext.symm.trans ht)
      refine ⟨text', htext', ?_⟩
      rcases hfold with hfold | hfold
      · rw [hfold]
        exact ⟨hsound, .refl _⟩
      · rw [hfold]
        exact ⟨hsound.foldValue hresolved, foldValue_extends _ _⟩
  · exact ⟨text, htext, hsound, .refl _⟩

theorem answer_ok (hlaw : LawfulCall lower serde content q)
    (hclean : CleanCall lower serde content q) {out : Outcome}
    (h : answer lower serde content q = some (.ok out)) :
    refused q.call = none ∧ ∃ text text' event, decodeUtf8 content = some text ∧
      decodeUtf8 (step lower serde content q) = some text' ∧
      appended lower serde content q = event ∧
      Resolved lower (foldStr serde text) q event out ∧
      foldStr serde text' = event.elim (foldStr serde text) (foldValue (foldStr serde text)) := by
  unfold answer at h
  split at h
  · cases h
  · split at h
    · cases h
    · next out' hres =>
        obtain rfl := Except.ok.inj (Option.some.inj h)
        obtain ⟨hopen, text, htext, hresolved⟩ := resolved_of_resolve hres
        have hnone := appended_of_resolve hres
        refine ⟨hopen, text, text, none, htext, ?_, hnone, hresolved, rfl⟩
        rw [step, hnone]
        exact htext
    · next event out' hres =>
        split at h
        · next hwhole =>
            obtain rfl := Except.ok.inj (Option.some.inj h)
            obtain ⟨hopen, text, htext, hresolved⟩ := resolved_of_resolve hres
            have hevent := appended_of_resolve hres
            obtain ⟨hat, hcut⟩ := hclean event hevent
            obtain ⟨text', htext', -, hfold⟩ :=
              foldStr_writeLine (hlaw event hevent) hat htext hcut
            refine ⟨hopen, text, text', some event, htext, ?_, hevent, hresolved, hfold hwhole⟩
            rw [step, hevent]
            exact htext'
        · cases h

theorem fold_of_decode (htext : decodeUtf8 content = some text) :
    fold serde content = foldStr serde text := by
  simp [fold, htext]

theorem bySession_of_mintOrGet (hlaw : LawfulCall lower serde content q)
    (hclean : CleanCall lower serde content q) {session id : String} {name : Option String}
    (hcall : q.call = .mintOrGet session name)
    (h : answer lower serde content q = some (.ok (.id id))) :
    session ≠ "" ∧ (fold serde (step lower serde content q)).bySession session = some id := by
  obtain ⟨hopen, text, text', event, htext, htext', -, hresolved, hfold⟩ :=
    answer_ok hlaw hclean h
  rw [fold_of_decode htext', hfold]
  refine ⟨?_, ?_⟩
  · rintro rfl
    simp [hcall, refused] at hopen
  · cases hresolved with
    | known s n id hcall' hknown =>
        obtain ⟨rfl, -⟩ := Call.mintOrGet.inj (hcall.symm.trans hcall')
        exact hknown
    | minted s n id hcall' hsession hnew hfresh hid =>
        obtain ⟨rfl, -⟩ := Call.mintOrGet.inj (hcall.symm.trans hcall')
        simp [foldValue_mintEvent, Json.asStr, foldMint_fresh hid hsession hfresh hnew]
    | reserved n id hcall' => cases hcall.symm.trans hcall'

theorem bySession_of_bound (hlaw : LawfulCall lower serde content q)
    (hclean : CleanCall lower serde content q) {id session : String}
    (hcall : q.call = .bind id session) (hsound : Sound (fold serde content))
    (h : answer lower serde content q = some (.ok (.bind .bound))) :
    (fold serde (step lower serde content q)).bySession session = some (lower.apply id) := by
  obtain ⟨-, text, text', event, htext, htext', -, hresolved, hfold⟩ :=
    answer_ok hlaw hclean h
  rw [fold_of_decode htext', hfold]
  rw [fold_of_decode htext] at hsound
  cases hresolved with
  | rebound id' s outcome hcall' hout => exact absurd rfl hout
  | bound id' s hcall' hsession hnew hopen =>
      obtain ⟨rfl, rfl⟩ := Call.bind.inj (hcall.symm.trans hcall')
      have hid : lower.apply id ≠ "" := by
        intro heq
        rw [heq, hsound.empty] at hopen
        cases hopen
      simp [foldValue_bindEvent, foldBind_open hid hsession hnew hopen]

def Mints (lower : Lowercase) (serde : SerdeJson) (content : Bytes) (q : Request)
    (id : String) : Prop :=
  answer lower serde content q = some (.ok (.id id)) ∧
    (appended lower serde content q).isSome = true

theorem byId_of_mints (hlaw : LawfulCall lower serde content q)
    (hclean : CleanCall lower serde content q) {id : String}
    (h : Mints lower serde content q id) :
    (fold serde content).byId id = none ∧
      (fold serde (step lower serde content q)).byId id ≠ none := by
  obtain ⟨hanswer, hsome⟩ := h
  obtain ⟨-, text, text', event, htext, htext', hevent, hresolved, hfold⟩ :=
    answer_ok hlaw hclean hanswer
  rw [fold_of_decode htext', fold_of_decode htext, hfold]
  cases hresolved with
  | known s n id hcall hknown => simp [hevent] at hsome
  | minted s n id hcall hsession hnew hfresh hid =>
      refine ⟨hfresh, ?_⟩
      simp [foldValue_mintEvent, Json.asStr, foldMint_fresh hid hsession hfresh hnew]
  | reserved n id hcall hfresh hid =>
      refine ⟨hfresh, ?_⟩
      have hnull : Json.null.asStr.getD "" = "" := rfl
      simp [foldValue_mintEvent, hnull, foldMint_reserved hid hfresh]

theorem answer_of_bySession (htext : decodeUtf8 content = some text)
    {session id : String} {name : Option String} (hcall : q.call = .mintOrGet session name)
    (hsession : session ≠ "") (hknown : (fold serde content).bySession session = some id)
    (hlives : q.dies = false) :
    answer lower serde content q = some (.ok (.id id)) := by
  rw [fold_of_decode htext] at hknown
  simp [answer, hlives, resolve, refused, hcall, hsession, htext, respond, hknown]

/-! ### Runs -/

def CleanRun (lower : Lowercase) (serde : SerdeJson) (run : List Request) : Prop :=
  ∀ pre q post, run = pre ++ q :: post → CleanCall lower serde (storeAfter lower serde pre) q

def LawfulRun (lower : Lowercase) (serde : SerdeJson) (run : List Request) : Prop :=
  ∀ pre q post, run = pre ++ q :: post → LawfulCall lower serde (storeAfter lower serde pre) q

theorem CleanRun.of_append {run more : List Request} (h : CleanRun lower serde (run ++ more)) :
    CleanRun lower serde run := by
  rintro pre q post rfl
  exact h pre q (post ++ more) (by simp)

theorem LawfulRun.of_append {run more : List Request}
    (h : LawfulRun lower serde (run ++ more)) : LawfulRun lower serde run := by
  rintro pre q post rfl
  exact h pre q (post ++ more) (by simp)

theorem storeAfter_snoc (run : List Request) :
    storeAfter lower serde (run ++ [q]) = step lower serde (storeAfter lower serde run) q := by
  simp [storeAfter]

theorem run_sound {run : List Request} (hlaw : LawfulRun lower serde run)
    (hclean : CleanRun lower serde run) :
    ∃ text, decodeUtf8 (storeAfter lower serde run) = some text ∧
      Sound (foldStr serde text) := by
  induction run using List.reverseRecOn with
  | nil =>
      have hempty : foldStr serde [] = {} := rfl
      refine ⟨[], decodeUtf8_encodeUtf8 [], ?_⟩
      rw [hempty]
      exact ⟨fun s id h => (Option.some_ne_none id h.symm).elim, rfl⟩
  | append_singleton run q ih =>
      obtain ⟨text, htext, hsound⟩ := ih hlaw.of_append hclean.of_append
      obtain ⟨text', htext', hsound', -⟩ :=
        step_keeps (hlaw run q [] rfl) (hclean run q [] rfl) htext hsound
      rw [storeAfter_snoc]
      exact ⟨text', htext', hsound'⟩

theorem run_extends {pre more : List Request} (hlaw : LawfulRun lower serde (pre ++ more))
    (hclean : CleanRun lower serde (pre ++ more)) :
    Extends (fold serde (storeAfter lower serde pre))
      (fold serde (storeAfter lower serde (pre ++ more))) := by
  induction more using List.reverseRecOn with
  | nil => simpa using Extends.refl _
  | append_singleton more q ih =>
      rw [← List.append_assoc] at hlaw hclean ⊢
      obtain ⟨text, htext, hsound⟩ := run_sound hlaw.of_append hclean.of_append
      obtain ⟨text', htext', -, hext⟩ :=
        step_keeps (hlaw _ q [] rfl) (hclean _ q [] rfl) htext hsound
      rw [← fold_of_decode htext, ← fold_of_decode htext'] at hext
      rw [storeAfter_snoc]
      exact (ih hlaw.of_append hclean.of_append).trans hext

structure StableIds (lower : Lowercase) (serde : SerdeJson) (run : List Request) : Prop where
  /-- Once `mint_or_get` returned an id for a session, every later one that
  returns gives the same id. -/
  kept : ∀ pre q mid q' post session name name' id,
    run = pre ++ q :: mid ++ q' :: post →
    q.call = .mintOrGet session name → q'.call = .mintOrGet session name' →
    answer lower serde (storeAfter lower serde pre) q = some (.ok (.id id)) →
    q'.dies = false →
    answer lower serde (storeAfter lower serde (pre ++ q :: mid)) q' = some (.ok (.id id))
  /-- Once `bind` returned `Bound`, the session resolves to the id for good. -/
  bound : ∀ pre q more post id session, run = pre ++ q :: more ++ post →
    q.call = .bind id session →
    answer lower serde (storeAfter lower serde pre) q = some (.ok (.bind .bound)) →
    (fold serde (storeAfter lower serde (pre ++ q :: more))).bySession session =
      some (lower.apply id)
  /-- No id is returned for two sessions. -/
  distinct : ∀ pre q mid q' post session session' name name' id,
    run = pre ++ q :: mid ++ q' :: post →
    q.call = .mintOrGet session name → q'.call = .mintOrGet session' name' →
    answer lower serde (storeAfter lower serde pre) q = some (.ok (.id id)) →
    answer lower serde (storeAfter lower serde (pre ++ q :: mid)) q' = some (.ok (.id id)) →
    session = session'
  /-- No id is minted twice. -/
  mintedOnce : ∀ pre q mid q' post id, run = pre ++ q :: mid ++ q' :: post →
    Mints lower serde (storeAfter lower serde pre) q id →
    ¬ Mints lower serde (storeAfter lower serde (pre ++ q :: mid)) q' id
  /-- Both directions agree in every folded map. -/
  agree : ∀ pre post, run = pre ++ post → ∀ session id,
    (fold serde (storeAfter lower serde pre)).bySession session = some id →
    (fold serde (storeAfter lower serde pre)).byId id = some (some session)

def keepCase : Lowercase := ⟨id, rfl⟩

/-- A call of `mint_or_get` for one session, with the generator's answer. -/
def mintU (id : String) (cut : Nat) : Request :=
  { call := .mintOrGet "u" none, ts := "t", gen := fun _ => id, cut := cut, dies := false }

/-- The JSON library at the events of `mintU`. -/
def mintJson : SerdeJson :=
  .knowing [mintEvent "t" "44444444" (.str "u") none, mintEvent "t" "55555555" (.str "u") none]

end QuorumDispatch.IdStore
