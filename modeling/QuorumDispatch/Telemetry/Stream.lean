import QuorumDispatch.Lib.JsonScan
import QuorumDispatch.Lib.Lines

/-!
The lines of `marks.jsonl`. Marks, `create` events and invocations are appended by writers that
take no lock, and a write may be cut off. `observed` lines are appended between two newlines.
-/

namespace QuorumDispatch.Telemetry

open Lib

/-! ### Lines -/

def insertOpt (key : String) (v : Option String) : List (String × Json) :=
  match v with
  | some s => if s.isEmpty then [] else [(key, .str s)]
  | none => []

structure CreateEvent where
  name : String
  sessionId : Option String := none
  spawnedBy : Option String := none
  spawnedBySessionId : Option String := none
  backend : Option String := none
deriving DecidableEq

def buildCreateLine (ts : String) (ev : CreateEvent) : Json :=
  .obj (("ts", .str ts) :: ("event", .str "create") :: ("name", .str ev.name) ::
    (insertOpt "sessionId" ev.sessionId ++ insertOpt "spawnedBy" ev.spawnedBy ++
      insertOpt "spawnedBySessionId" ev.spawnedBySessionId ++ insertOpt "backend" ev.backend))

def buildInvokedLine (ts verb : String) (sessionId name : Option String) : Json :=
  .obj (("ts", .str ts) :: ("event", .str "invoked") :: ("verb", .str verb) ::
    (insertOpt "sessionId" sessionId ++ insertOpt "name" name))

def buildMarkLine (ts sessionId : String) (payload : List (String × Json)) : Json :=
  .obj [("ts", .str ts), ("sessionId", .str sessionId), ("payload", .obj payload)]

structure ObservedKey where
  host : String
  harness : String
  sessionId : String
deriving DecidableEq, Repr

def buildObservedLine (ts : String) (key : ObservedKey) (cwd : Option String) : Json :=
  .obj (("ts", .str ts) :: ("event", .str "observed") :: ("host", .str key.host) ::
    ("harness", .str key.harness) :: ("sessionId", .str key.sessionId) :: insertOpt "cwd" cwd)

inductive UnlockedLine where
  | create (ts : String) (ev : CreateEvent)
  | invoked (ts verb : String) (sessionId name : Option String)
  | mark (ts sessionId : String) (payload : List (String × Json))

def UnlockedLine.value : UnlockedLine → Json
  | create ts ev => buildCreateLine ts ev
  | invoked ts verb sessionId name => buildInvokedLine ts verb sessionId name
  | mark ts sessionId payload => buildMarkLine ts sessionId payload

section Serde

variable (serde : SerdeJson)

/-- `append_line` and `append_mark`: the bytes of the one write. -/
def lineBytes (line : UnlockedLine) : Bytes := encodeUtf8 (serde.toString line.value ++ ['\n'])

/-- `append_observed_self_delimited`. -/
def selfDelimited (line : Json) : List Char := '\n' :: serde.toString line ++ ['\n']

/-! ### Reading -/

/-- Whether a line of the stream is an `observed` line with the key. -/
def isObservedLine (key : ObservedKey) (line : List Char) : Bool :=
  let trimmed := trim line
  if trimmed.isEmpty then false
  else
    match serde.fromStr trimmed with
    | some (.obj entries) =>
        let obj := Json.obj entries
        obj.strField "event" == some "observed" && (obj.strField "host" == some key.host &&
          obj.strField "harness" == some key.harness && obj.strField "sessionId" == some key.sessionId)
    | _ => false

/-- `observed_line_in_stream`, once the file is read. The part behind the last newline is left
out. -/
def observedLineInText (key : ObservedKey) (text : List Char) : Bool :=
  (Lines.of '\n' text).terminated.any (isObservedLine serde key)

/-- The key of a readable `observed` line. -/
def observedKey? (line : List Char) : Option ObservedKey :=
  if (trim line).isEmpty then none
  else
    match serde.fromStr (trim line) with
    | some (.obj entries) =>
        let obj := Json.obj entries
        if obj.strField "event" = some "observed" then do
          let host ← obj.strField "host"
          let harness ← obj.strField "harness"
          let sessionId ← obj.strField "sessionId"
          return { host, harness, sessionId }
        else none
    | _ => none

/-- The keys of the readable `observed` lines, line by line. -/
def keysOfLines (lines : List (List Char)) : List ObservedKey := lines.filterMap (observedKey? serde)

/-- The keys that the stream records: nothing is read of a file that is not UTF-8. -/
def observedKeys (stream : Bytes) : List ObservedKey :=
  match decodeUtf8 stream with
  | some text => keysOfLines serde (Lines.of '\n' text).terminated
  | none => []

end Serde

variable {serde : SerdeJson} {key : ObservedKey}

theorem isObservedLine_iff {line : List Char} :
    isObservedLine serde key line = true ↔ observedKey? serde line = some key := by
  unfold isObservedLine observedKey?
  by_cases hempty : (trim line).isEmpty = true
  · simp [hempty]
  · rw [if_neg hempty, if_neg hempty]
    rcases serde.fromStr (trim line) with _ | v
    · simp
    · cases v with
      | obj entries =>
          obtain ⟨host, harness, sessionId⟩ := key
          by_cases hevent : (Json.obj entries).strField "event" = some "observed"
          · simp [hevent, Option.bind_eq_some_iff, and_assoc]
          · simp [hevent]
      | _ => simp

theorem observedLineInText_iff {text : List Char} :
    observedLineInText serde key text = true ↔
      key ∈ keysOfLines serde (Lines.of '\n' text).terminated := by
  simp only [observedLineInText, keysOfLines, List.any_eq_true, List.mem_filterMap,
    isObservedLine_iff]

theorem observedKeys_encodeUtf8 (text : List Char) :
    observedKeys serde (encodeUtf8 text) = keysOfLines serde (Lines.of '\n' text).terminated := by
  rw [observedKeys, decodeUtf8_encodeUtf8]

/-! ### What is relied on -/

variable (serde)

/-- The library at a line of a writer without the lock: the compact text is printed. -/
structure PrintsAt (line : UnlockedLine) : Prop where
  lawful : serde.LawfulAt line.value
  compact : serde.toString line.value = line.value.compact
  printable : line.value.Printable

/-- The library reads a text as an object only if brackets and quotes close in it. -/
def ReadsBrackets : Prop :=
  ∀ cs v, serde.fromStr ('\x7b' :: cs) = some v → Scan.accepts ('\x7b' :: cs) = true

def UnlockedText (text : List Char) : Prop :=
  ∃ line, PrintsAt serde line ∧ text = serde.toString line.value

variable {serde}

theorem UnlockedLine.value_eq (line : UnlockedLine) :
    ∃ ts entries, line.value = .obj (("ts", .str ts) :: entries) := by
  cases line with
  | create ts ev => exact ⟨ts, _, rfl⟩
  | invoked ts verb sessionId name => exact ⟨ts, _, rfl⟩
  | mark ts sessionId payload => exact ⟨ts, _, rfl⟩

theorem bracketed_of_unlockedText {text : List Char} (h : UnlockedText serde text) :
    Scan.Bracketed text := by
  obtain ⟨line, hprints, rfl⟩ := h
  obtain ⟨ts, entries, hvalue⟩ := line.value_eq
  have hprintable := hprints.printable
  rw [hprints.compact]
  rw [hvalue] at hprintable ⊢
  have hkey : Json.quote "ts" = '"' :: 't' :: ['s', '"'] := by decide
  exact Scan.bracketed_compact hkey (by decide) hprintable

theorem insertOpt_keys {name : String} {v : Option String} {k : String} (h : k ≠ name) :
    k ∉ (insertOpt name v).map Prod.fst := by
  unfold insertOpt
  split
  · split <;> simp [h]
  · simp

theorem UnlockedLine.strField_event (line : UnlockedLine) :
    line.value.strField "event" ≠ some "observed" := by
  cases line with
  | create ts ev =>
      have hrest : "event" ∉ (insertOpt "sessionId" ev.sessionId ++
          insertOpt "spawnedBy" ev.spawnedBy ++
          insertOpt "spawnedBySessionId" ev.spawnedBySessionId ++
          insertOpt "backend" ev.backend).map Prod.fst := by
        simp only [List.map_append, List.mem_append, not_or]
        exact ⟨⟨⟨insertOpt_keys (by decide), insertOpt_keys (by decide)⟩,
          insertOpt_keys (by decide)⟩, insertOpt_keys (by decide)⟩
      rw [value, buildCreateLine, Json.strField, Json.get_obj_cons, Json.get_obj_cons,
        Json.get_obj_cons, Json.get_obj_of_notMem hrest]
      simp [Json.asStr]
  | invoked ts verb sessionId name =>
      have hrest : "event" ∉
          (insertOpt "sessionId" sessionId ++ insertOpt "name" name).map Prod.fst := by
        simp only [List.map_append, List.mem_append, not_or]
        exact ⟨insertOpt_keys (by decide), insertOpt_keys (by decide)⟩
      rw [value, buildInvokedLine, Json.strField, Json.get_obj_cons, Json.get_obj_cons,
        Json.get_obj_cons, Json.get_obj_of_notMem hrest]
      simp [Json.asStr]
  | mark ts sessionId payload =>
      simp [value, buildMarkLine, Json.strField, Json.get_obj_cons]

theorem observedKey?_observed {ts : String} {cwd : Option String}
    (h : serde.LawfulAt (buildObservedLine ts key cwd)) :
    observedKey? serde (serde.toString (buildObservedLine ts key cwd)) = some key := by
  have hfield : ∀ k, k ≠ "cwd" → (Json.obj (insertOpt "cwd" cwd)).get k = none :=
    fun k hk => Json.get_obj_of_notMem (insertOpt_keys hk)
  rw [observedKey?, h.trim_toString, if_neg (by simp [h.toString_ne_nil]), h.fromStr_toString]
  simp [buildObservedLine, Json.strField, Json.get_obj_cons, hfield, Json.asStr]

theorem observedKey?_joined {line : List Char} (hreads : ReadsBrackets serde)
    (h : Scan.Joined (UnlockedText serde) line) : observedKey? serde line = none := by
  rw [observedKey?]
  split
  · rfl
  next hempty =>
    cases hparse : serde.fromStr (trim line) with
    | none => rfl
    | some v =>
        have hne : line ≠ [] := by
          rintro rfl
          exact hempty rfl
        have hhead := h.head?_eq (fun _ => bracketed_of_unlockedText) hne
        have hpre : trim line <+: line := by
          apply trim_isPrefix
          intro c hc
          rw [hhead] at hc
          cases hc
          decide
        have hbrace : ∃ rest, trim line = '\x7b' :: rest := by
          obtain ⟨rest, hrest⟩ := hpre
          cases htrim : trim line with
          | nil => simp [htrim] at hempty
          | cons c cs =>
              rw [htrim] at hrest
              rw [← hrest] at hhead
              cases hhead
              exact ⟨cs, rfl⟩
        obtain ⟨rest, hrest⟩ := hbrace
        have haccepts : Scan.accepts (trim line) = true := by
          rw [hrest] at hparse ⊢
          exact hreads rest v hparse
        -- so it is one of the lines, and that one is no `observed` line
        obtain ⟨unlocked, hprints, htext⟩ :=
          h.mem_of_accepts (fun _ => bracketed_of_unlockedText) hpre haccepts
        rw [htext, hprints.lawful.fromStr_toString] at hparse
        cases hparse
        have hevent := unlocked.strField_event
        obtain ⟨ts, entries, hvalue⟩ := unlocked.value_eq
        rw [hvalue] at hevent ⊢
        exact if_neg hevent

/-! ### Appends -/

/-- A stream that only these writers appended to: its lines, and the part behind the last
newline. -/
structure Written (serde : SerdeJson) (lines : Lines Char) : Prop where
  line : ∀ line ∈ lines.terminated, Scan.Joined (UnlockedText serde) line ∨
    ∃ ts key cwd, serde.LawfulAt (buildObservedLine ts key cwd) ∧
      line = serde.toString (buildObservedLine ts key cwd)
  tail : Scan.Joined (UnlockedText serde) lines.tail

theorem written_nil : Written serde (Lines.of '\n' []) where
  line _ h := by cases h
  tail := .nil

variable {lines : Lines Char}

theorem Written.append_unlocked (h : Written serde lines) (hreads : ReadsBrackets serde)
    {line : UnlockedLine} (hprints : PrintsAt serde line) {p : List Char}
    (hp : p <+: serde.toString line.value ++ ['\n']) :
    Written serde (lines.extend '\n' p) ∧
      keysOfLines serde (lines.extend '\n' p).terminated = keysOfLines serde lines.terminated := by
  have hmem : UnlockedText serde (serde.toString line.value) := ⟨line, hprints, rfl⟩
  have hline := hprints.lawful.oneLine
  rcases List.prefix_concat_iff.mp hp with rfl | hp
  · -- the line is whole, and closes what was open before it
    have hjoined := Scan.Joined.snoc h.tail hmem (List.prefix_refl _)
    rw [Lines.extend_append, Lines.extend_of_notMem hline, Lines.extend_sep]
    refine ⟨⟨?_, .nil⟩, ?_⟩
    · intro l hl
      rcases List.mem_append.mp hl with hl | hl
      · exact h.line l hl
      · exact .inl (List.mem_singleton.mp hl ▸ hjoined)
    · simp [keysOfLines, observedKey?_joined hreads hjoined]
  · rw [Lines.extend_of_notMem fun hmem => hline (hp.subset hmem)]
    exact ⟨⟨h.line, .snoc h.tail hmem hp⟩, rfl⟩

theorem Written.append_observed (h : Written serde lines) (hreads : ReadsBrackets serde)
    {ts : String} {cwd : Option String} (hlawful : serde.LawfulAt (buildObservedLine ts key cwd)) :
    Written serde (lines.extend '\n' (selfDelimited serde (buildObservedLine ts key cwd))) ∧
      keysOfLines serde
          (lines.extend '\n' (selfDelimited serde (buildObservedLine ts key cwd))).terminated =
        keysOfLines serde lines.terminated ++ [key] := by
  have hextend : lines.extend '\n' (selfDelimited serde (buildObservedLine ts key cwd)) =
      ⟨lines.terminated ++ [lines.tail] ++ [serde.toString (buildObservedLine ts key cwd)], []⟩ := by
    rw [selfDelimited, List.cons_append, Lines.extend_cons, Lines.push, if_pos rfl,
      Lines.extend_append, Lines.extend_of_notMem hlawful.oneLine, Lines.extend_sep, List.nil_append]
  rw [hextend]
  refine ⟨⟨?_, .nil⟩, ?_⟩
  · intro l hl
    rcases List.mem_append.mp hl with hl | hl
    · rcases List.mem_append.mp hl with hl | hl
      · exact h.line l hl
      · exact .inl (List.mem_singleton.mp hl ▸ h.tail)
    · exact .inr ⟨ts, key, cwd, hlawful, List.mem_singleton.mp hl⟩
  · simp [keysOfLines, observedKey?_joined hreads h.tail, observedKey?_observed hlawful]

end QuorumDispatch.Telemetry
