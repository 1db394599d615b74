import QuorumDispatch.DeliveryEvents.Ledger
import QuorumDispatch.Lib.Runs

/-!
The merged reading of a session's two ledgers.

A send is recorded under its session id or, where that was not known yet, under
`byname-<name>`. A reader concatenates the records of both files, the session's
first, and takes the first terminal of a send as its verdict. The order of the
files is not the order of writing: a terminal that was read from the byname file
is overtaken by one that is appended to the session file later.
-/

namespace QuorumDispatch.DeliveryEvents

open Lib

abbrev Files := String → Bytes

def bynameKey (name : String) : String := "byname-" ++ name

/-- `reader_paths`, as keys: the session's file, then the byname file. -/
def readerPaths (sessionId name : Option String) : List String :=
  (sessionId.filter (!·.isEmpty)).toList ++
    ((name.filter (!·.isEmpty)).map bynameKey).toList

section

variable (serde : SerdeJson)

def readMerged (files : Files) (sessionId name : Option String) : ReadResult :=
  (readerPaths sessionId name).foldl (fun merged key =>
    let r := readEvents serde (files key)
    { records := merged.records ++ r.records
      corruptInterior := merged.corruptInterior + r.corruptInterior
      sawTruncation := merged.sawTruncation || r.sawTruncation }) {}

def verdictFor (files : Files) (sessionId name : Option String) (sendId : String) :
    Option EventRecord :=
  firstTerminalFor (readMerged serde files sessionId name).records sendId

end

structure Append where
  key : String
  bytes : Bytes

def Append.apply (files : Files) (a : Append) : Files :=
  Function.update files a.key (files a.key ++ a.bytes)

/-- The condition on an append: it puts text behind the last whole line of a readable
file, and unless the first file that the reader merges has a terminal of the send
already, it does not put one there that would overtake that of a later file. -/
structure CleanAppend (serde : SerdeJson) (sessionId name : Option String) (sendId : String)
    (files : Files) (a : Append) : Prop where
  boundary : AtLineBoundary (files a.key)
  readable : (decodeUtf8 (files a.key)).isSome = true
  text : (decodeUtf8 a.bytes).isSome = true
  behind : ∀ later, readerPaths sessionId name = [a.key, later] → a.key ≠ later →
    firstTerminalFor (readEvents serde (files a.key)).records sendId = none →
    firstTerminalFor (readEvents serde (files later)).records sendId ≠ none →
    firstTerminalFor (readEvents serde a.bytes).records sendId = none

variable {serde : SerdeJson}

/-! ### What an append adds to the reading of a file -/

theorem records_readSegment (torn : Bool) (r : ReadResult) (seg : List Char) :
    (readSegment serde torn r seg).records =
      r.records ++ (readSegment serde torn {} seg).records := by
  simp only [readSegment]
  split
  · simp
  · split
    · simp
    · split <;> simp

theorem records_foldl_readSegment (r : ReadResult) (segs : List (List Char)) :
    (segs.foldl (readSegment serde false) r).records =
      r.records ++ (segs.foldl (readSegment serde false) {}).records := by
  induction segs generalizing r with
  | nil => simp
  | cons seg segs ih =>
      rw [List.foldl_cons, ih, List.foldl_cons, ih (readSegment serde false {} seg),
        records_readSegment, List.append_assoc]

theorem records_parseEvents_append {text : List Char} (more : List Char)
    (htail : (Lines.of '\n' text).tail = []) :
    (parseEvents serde (text ++ more)).records =
      (parseEvents serde text).records ++ (parseEvents serde more).records := by
  have hlines : Lines.of '\n' (text ++ more) =
      ⟨(Lines.of '\n' text).terminated ++ (Lines.of '\n' more).terminated,
        (Lines.of '\n' more).tail⟩ := by
    calc Lines.of '\n' (text ++ more)
        = Lines.extend '\n' ⟨(Lines.of '\n' text).terminated ++ [], []⟩ more := by
          rw [Lines.of_append, List.append_nil, ← htail]
      _ = _ := Lines.extend_of_terminated _ {} more
  simp only [parseEvents, hlines, htail, List.isEmpty_nil, if_true, List.foldl_append]
  split
  · exact records_foldl_readSegment _ _
  · rw [records_readSegment, records_foldl_readSegment, List.append_assoc, ← records_readSegment]

theorem records_readEvents_append {content bytes : Bytes} (hat : AtLineBoundary content)
    (hread : (decodeUtf8 content).isSome = true) (htext : (decodeUtf8 bytes).isSome = true) :
    (readEvents serde (content ++ bytes)).records =
      (readEvents serde content).records ++ (readEvents serde bytes).records := by
  obtain ⟨text, htext'⟩ := Option.isSome_iff_exists.mp hread
  obtain ⟨more, hmore⟩ := Option.isSome_iff_exists.mp htext
  have hboth : decodeUtf8 (content ++ bytes) = some (text ++ more) := by
    rw [← encodeUtf8_of_decodeUtf8 hmore]
    exact decodeUtf8_append_encodeUtf8 htext' more
  simp only [readEvents, hboth, htext', hmore, Option.getD_some]
  exact records_parseEvents_append more (tail_of_atLineBoundary hat htext')

def fileTerminal (serde : SerdeJson) (files : Files) (sendId key : String) :
    Option EventRecord :=
  firstTerminalFor (readEvents serde (files key)).records sendId

theorem firstTerminalFor_append (rs ss : List EventRecord) (id : String) :
    firstTerminalFor (rs ++ ss) id = (firstTerminalFor rs id).or (firstTerminalFor ss id) := by
  simp [firstTerminalFor, List.find?_append]

theorem records_merge (files : Files) (keys : List String) (r : ReadResult) :
    (keys.foldl (fun merged key =>
      let r := readEvents serde (files key)
      { records := merged.records ++ r.records
        corruptInterior := merged.corruptInterior + r.corruptInterior
        sawTruncation := merged.sawTruncation || r.sawTruncation }) r).records =
      r.records ++ keys.flatMap fun key => (readEvents serde (files key)).records := by
  induction keys generalizing r with
  | nil => simp
  | cons key keys ih => simp [ih]

theorem verdictFor_eq (files : Files) (sessionId name : Option String) (id : String) :
    verdictFor serde files sessionId name id =
      (readerPaths sessionId name).findSome? (fileTerminal serde files id) := by
  rw [verdictFor, readMerged, records_merge, List.nil_append]
  induction readerPaths sessionId name with
  | nil => rfl
  | cons key keys ih =>
      rw [List.flatMap_cons, firstTerminalFor_append, List.findSome?_cons, ih]
      unfold fileTerminal
      cases firstTerminalFor (readEvents serde (files key)).records id <;> rfl

theorem readerPaths_cases (sessionId name : Option String) :
    readerPaths sessionId name = [] ∨ (∃ key, readerPaths sessionId name = [key]) ∨
      ∃ first later, readerPaths sessionId name = [first, later] := by
  unfold readerPaths
  cases sessionId.filter (!·.isEmpty) <;> cases name.filter (!·.isEmpty) <;> simp

/-! ### One append -/

variable {sessionId name : Option String} {sendId : String} {files : Files} {a : Append}

theorem fileTerminal_apply_of_ne {key : String} (hne : key ≠ a.key) :
    fileTerminal serde (a.apply files) sendId key = fileTerminal serde files sendId key := by
  simp [fileTerminal, Append.apply, Function.update_of_ne hne]

theorem fileTerminal_apply (h : CleanAppend serde sessionId name sendId files a) :
    fileTerminal serde (a.apply files) sendId a.key =
      (fileTerminal serde files sendId a.key).or
        (firstTerminalFor (readEvents serde a.bytes).records sendId) := by
  unfold fileTerminal Append.apply
  rw [Function.update_self, records_readEvents_append h.boundary h.readable h.text,
    firstTerminalFor_append]

theorem fileTerminal_apply_of_some (h : CleanAppend serde sessionId name sendId files a)
    {key : String} {r : EventRecord} (hr : fileTerminal serde files sendId key = some r) :
    fileTerminal serde (a.apply files) sendId key = some r := by
  by_cases hkey : key = a.key
  · subst hkey
    rw [fileTerminal_apply h, hr]
    rfl
  · rw [fileTerminal_apply_of_ne hkey, hr]

theorem verdictFor_apply (h : CleanAppend serde sessionId name sendId files a) {r : EventRecord}
    (hr : verdictFor serde files sessionId name sendId = some r) :
    verdictFor serde (a.apply files) sessionId name sendId = some r := by
  rw [verdictFor_eq] at hr ⊢
  obtain hnil | ⟨key, hone⟩ | ⟨first, later, htwo⟩ := readerPaths_cases sessionId name
  · simp [hnil] at hr
  · rw [hone, List.findSome?_cons] at hr ⊢
    cases hkey : fileTerminal serde files sendId key with
    | none => simp [hkey] at hr
    | some r' =>
        rw [fileTerminal_apply_of_some h hkey]
        simpa [hkey] using hr
  · rw [htwo, List.findSome?_cons, List.findSome?_cons] at hr ⊢
    cases hfirst : fileTerminal serde files sendId first with
    | some r' =>
        rw [fileTerminal_apply_of_some h hfirst]
        simpa [hfirst] using hr
    | none =>
        have hlater : fileTerminal serde files sendId later = some r := by
          cases hl : fileTerminal serde files sendId later with
          | none => simp [hfirst, hl] at hr
          | some r' => simpa [hfirst, hl] using hr
        have hlater' := fileTerminal_apply_of_some h hlater
        -- the first file has no terminal yet, and the append does not bring one
        have hfirst' : fileTerminal serde (a.apply files) sendId first = none := by
          by_cases hkey : first = a.key
          · subst hkey
            have hne : a.key ≠ later := by
              rintro rfl
              simp [hfirst] at hlater
            have hbehind := h.behind later htwo hne hfirst
              (by unfold fileTerminal at hlater; simp [hlater])
            rw [fileTerminal_apply h, hfirst, hbehind]
            rfl
          · rw [fileTerminal_apply_of_ne hkey, hfirst]
        simp [hfirst', hlater']

/-- A verdict that a reader has seen does not change as the files grow, as long as no
append tears a line or lets a terminal in the session's file overtake one that was
read from the byname file. -/
theorem verdictFor_of_cleanAppends (serde : SerdeJson) (sessionId name : Option String)
    (sendId : String) (files : Files) (run : List Append)
    (hclean : Along Append.apply (CleanAppend serde sessionId name sendId) files run)
    (r : EventRecord) (hr : verdictFor serde files sessionId name sendId = some r) :
    verdictFor serde (run.foldl Append.apply files) sessionId name sendId = some r := by
  induction run generalizing files with
  | nil => exact hr
  | cons a run ih => exact ih _ hclean.2 (verdictFor_apply hclean.1 hr)

/-! ### Two terminals of one send -/

def Emission.bytes (serde : SerdeJson) (e : Emission) : Bytes :=
  encodeUtf8 (e.line serde ++ ['\n'])

theorem records_readEvents_bytes {e : Emission} (h : Lawful serde e) :
    (readEvents serde (e.bytes serde)).records = [e.record serde] := by
  have hwhole : Whole (e.line serde) ((encodeUtf8 (e.line serde)).length + 1) := Nat.le_refl _
  have hline : '\n' ∉ e.line serde := h.record.oneLine
  have hwrite : readEvents serde (writeLine [] (e.line serde) _) = _ :=
    readEvents_writeLine hline (.inl rfl) (decodeUtf8_encodeUtf8 []) hwhole
  rw [writeLine_of_whole hwhole] at hwrite
  rw [Emission.bytes, ← List.nil_append (encodeUtf8 _), hwrite, readSegment_line h]
  have hempty : decodeUtf8 [] = some [] := decodeUtf8_encodeUtf8 []
  simp [readEvents, hempty, parseEvents]

theorem fileTerminal_bytes {e : Emission} (h : Lawful serde e) {key : String}
    (hfile : files key = e.bytes serde) (hterm : isTerminalFor sendId e.payload = true) :
    fileTerminal serde files sendId key = some (e.record serde) := by
  have hboth : e.payload.sendId = some sendId ∧ isTerminal e.payload.eventName = true := by
    simpa [isTerminalFor] using hterm
  have hevent : (e.record serde).event = e.payload.eventName := rfl
  unfold fileTerminal
  rw [hfile, records_readEvents_bytes h]
  simp [firstTerminalFor, record_sendId, hboth.1, hboth.2, hevent]

/-- A second terminal of the send of `seen`. -/
def gone : Emission where
  writer := .mux
  env := { ts := "t", pid := 2, seq := 0 }
  payload := .seenFailed "s" "gone"
  cut := 200
  markerEnv := { ts := "t", pid := 1, seq := 0 }
  markerCut := 0

/-- The JSON library at the records of `seen` and `gone`. -/
def twoJson : SerdeJson :=
  .knowing [.obj (recordEntries (seen 0).env (seen 0).payload chunkShaCap),
    .obj (recordEntries gone.env gone.payload chunkShaCap), .obj gone.markerEntries]

theorem twoJson_opens :
    [recordEntries (seen 0).env (seen 0).payload chunkShaCap, recordEntries gone.env gone.payload chunkShaCap,
      gone.markerEntries].Pairwise fun xs ys =>
        ¬ encodeUtf8 (Json.obj xs).compact <+: encodeUtf8 (Json.obj ys).compact ∧
          ¬ encodeUtf8 (Json.obj ys).compact <+: encodeUtf8 (Json.obj xs).compact := by
  decide

theorem gone_lawful : Lawful twoJson gone := by
  have hopens := twoJson_opens
  simp only [List.pairwise_cons, List.forall_mem_cons] at hopens
  obtain ⟨⟨hseen, hseen', -⟩, ⟨hgone, -⟩, -⟩ := hopens
  have hrecord : twoJson.LawfulAt (.obj (recordEntries gone.env gone.payload chunkShaCap)) := by
    apply SerdeJson.lawfulAt_knowing (List.mem_cons_of_mem _ List.mem_cons_self) (floatless_recordEntries _ _ _)
    exact List.forall_mem_cons.mpr ⟨.inr hseen.1, List.forall_mem_cons.mpr ⟨.inl rfl,
      List.forall_mem_singleton.mpr (.inr hgone.2)⟩⟩
  have hmarker : twoJson.LawfulAt (.obj gone.markerEntries) := by
    apply SerdeJson.lawfulAt_knowing (List.mem_cons_of_mem _ (List.mem_cons_of_mem _ List.mem_cons_self))
      (floatless_recordEntries _ _ _)
    exact List.forall_mem_cons.mpr ⟨.inr hseen'.1, List.forall_mem_cons.mpr ⟨.inr hgone.1,
      List.forall_mem_singleton.mpr (.inl rfl)⟩⟩
  exact ⟨hrecord, hmarker⟩

theorem seen_lawful_twoJson (cut : Nat) : Lawful twoJson (seen cut) := by
  have hopens := twoJson_opens
  simp only [List.pairwise_cons, List.forall_mem_cons] at hopens
  obtain ⟨⟨hgone, hmarker, -⟩, -⟩ := hopens
  have hrecord :
      twoJson.LawfulAt (.obj (recordEntries (seen 0).env (seen 0).payload chunkShaCap)) := by
    apply SerdeJson.lawfulAt_knowing List.mem_cons_self (floatless_recordEntries _ _ _)
    exact List.forall_mem_cons.mpr ⟨.inl rfl, List.forall_mem_cons.mpr ⟨.inr hgone.2,
      List.forall_mem_singleton.mpr (.inr hmarker.2)⟩⟩
  exact ⟨hrecord, gone_lawful.marker⟩

/-- The byname file of session `s1`, named `x`, holds a terminal. -/
def bynameSeen : Files := fun key =>
  if key = "byname-x" then (seen 0).bytes twoJson else []

theorem verdictFor_bynameSeen :
    verdictFor twoJson bynameSeen (some "s1") (some "x") "s" = some ((seen 0).record twoJson) := by
  have hpaths : readerPaths (some "s1") (some "x") = ["s1", "byname-x"] := by decide
  have hbyname : fileTerminal twoJson bynameSeen "s" "byname-x" =
      some ((seen 0).record twoJson) :=
    fileTerminal_bytes (seen_lawful_twoJson 0) rfl (by decide)
  have hsession : fileTerminal twoJson bynameSeen "s" "s1" = none := by
    have hempty : decodeUtf8 [] = some [] := decodeUtf8_encodeUtf8 []
    simp [fileTerminal, bynameSeen, readEvents, hempty, parseEvents, firstTerminalFor]
  rw [verdictFor_eq, hpaths]
  simp [hsession, hbyname]

/-- A further terminal in the byname file does not change the verdict. -/
theorem verdictFor_second_byname :
    verdictFor twoJson ([⟨"byname-x", gone.bytes twoJson⟩].foldl Append.apply bynameSeen)
      (some "s1") (some "x") "s" = some ((seen 0).record twoJson) := by
  refine verdictFor_of_cleanAppends twoJson (some "s1") (some "x") "s" bynameSeen
    [⟨"byname-x", gone.bytes twoJson⟩] ⟨⟨?_, ?_, ?_, ?_⟩, trivial⟩ _ verdictFor_bynameSeen
  · simp [bynameSeen, Emission.bytes, AtLineBoundary]
  · exact Option.isSome_iff_exists.mpr ⟨_, decodeUtf8_encodeUtf8 _⟩
  · exact Option.isSome_iff_exists.mpr ⟨_, decodeUtf8_encodeUtf8 _⟩
  · intro later hpaths
    have hfirst : (readerPaths (some "s1") (some "x")).head? = some "s1" := by decide
    rw [hpaths] at hfirst
    simp at hfirst

/-- A later terminal in the session's file overtakes the one that was read. -/
theorem byname_verdict_overtaken :
    verdictFor twoJson bynameSeen (some "s1") (some "x") "s" = some ((seen 0).record twoJson) ∧
      verdictFor twoJson (Append.apply bynameSeen ⟨"s1", gone.bytes twoJson⟩)
        (some "s1") (some "x") "s" ≠ some ((seen 0).record twoJson) := by
  refine ⟨verdictFor_bynameSeen, fun h => ?_⟩
  have hpaths : readerPaths (some "s1") (some "x") = ["s1", "byname-x"] := by decide
  have hsession : fileTerminal twoJson (Append.apply bynameSeen ⟨"s1", gone.bytes twoJson⟩) "s"
      "s1" = some (gone.record twoJson) :=
    fileTerminal_bytes gone_lawful (by simp [Append.apply, bynameSeen]) (by decide)
  rw [verdictFor_eq, hpaths, List.findSome?_cons, hsession] at h
  have hevent := congrArg (Option.map EventRecord.event) h
  exact absurd hevent (by decide)

end QuorumDispatch.DeliveryEvents
