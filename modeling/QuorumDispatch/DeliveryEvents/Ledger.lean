import QuorumDispatch.DeliveryEvents.Record
import QuorumDispatch.Lib.TextFile

/-!
The delivery-events ledger: its two readers, its two writers and their runs.

The engine writer keeps a file under a size cap and shrinks an oversized record
to fit; the attended writer appends as is. Both write `line + newline` in one
call and neither looks at what the file ends in. A call that a crash cut short
leaves a torn line, and the next record is glued to it: both are then lost to
the readers although the later call returned `Ok`. In a run in which every call
finds the file on a line boundary, each recorded event is readable and nothing
that was readable is lost.
-/

namespace QuorumDispatch.DeliveryEvents

open Lib

/-! ### Readers -/

structure EventRecord where
  pid : UInt32
  seq : UInt64
  event : String
  ts : Option String
  session : Option String
  name : Option String
  obj : List (String × Json)

def EventRecord.sendId (r : EventRecord) : Option String :=
  (Json.obj r.obj).strField "send_id"

structure ReadResult where
  records : List EventRecord := []
  corruptInterior : Nat := 0
  sawTruncation : Bool := false

section Readers

variable (serde : SerdeJson)

def parseOne (line : List Char) : Option EventRecord := do
  let v ← serde.fromStr line
  match v with
  | .obj obj =>
      let event ← v.strField "event"
      let pid ← v.u64Field "pid"
      let seq ← v.u64Field "seq"
      return { pid := .ofNat pid, seq := .ofNat seq, event, ts := v.strField "ts",
               session := v.strField "session", name := v.strField "name", obj }
  | _ => none

/-- One turn of the reading loop; `torn` marks the unterminated last segment. -/
def readSegment (torn : Bool) (r : ReadResult) (seg : List Char) : ReadResult :=
  let trimmed := trim seg
  if trimmed.isEmpty then r
  else
    match parseOne serde trimmed with
    | some rec =>
        { r with
          records := r.records ++ [rec]
          sawTruncation := r.sawTruncation || rec.event == "events-truncated" }
    | none => if torn then r else { r with corruptInterior := r.corruptInterior + 1 }

def parseEvents (text : List Char) : ReadResult :=
  let lines := Lines.of '\n' text
  let r := lines.terminated.foldl (readSegment serde false) {}
  if lines.tail.isEmpty then r else readSegment serde true r lines.tail

/-- The reading of a file: a file that is not valid text reads as empty. -/
def readEvents (content : Bytes) : ReadResult :=
  parseEvents serde ((decodeUtf8 content).getD [])

def firstTerminalFor (records : List EventRecord) (sendId : String) : Option EventRecord :=
  records.find? (fun r => isTerminal r.event && r.sendId == some sendId)

def lineIsTerminalFor (sendId : String) (line : List Char) : Bool :=
  match serde.fromStr line with
  | none => false
  | some v => v.strField "send_id" == some sendId && (v.strField "event").any isTerminal

/-- `str::lines` cuts at the same newlines; a carriage return before one falls
to the trim. -/
def ledgerHasTerminal (content : Bytes) (sendId : String) : Bool :=
  match decodeUtf8 content with
  | none => false
  | some body => (Lines.of '\n' body).segments.any fun line =>
      let line := trim line
      !line.isEmpty && lineIsTerminalFor serde sendId line

end Readers

/-! ### The shrink belt -/

section Belt

variable (serde : SerdeJson) (env : Envelope)

def recordBytes (payload : Payload) (shaCap : Nat) : Nat :=
  (encodeUtf8 (buildRecordLine serde env payload shaCap)).length

/-- At most `cap` bytes of a text, cut at a character. -/
def truncatePreviewBytes : List Char → Nat → List Char
  | [], _ => []
  | c :: cs, cap =>
      if c.utf8Size ≤ cap then c :: truncatePreviewBytes cs (cap - c.utf8Size) else []

def withPreview (f : SendInitiated) (preview : Option String) : SendInitiated :=
  { f with contentPreview := preview }

def previewOfCap (preview : String) (cap : Nat) : Option String :=
  if cap = 0 then none else some (String.ofList (truncatePreviewBytes preview.toList cap))

def previewFits (f : SendInitiated) (preview : String) (cap : Nat) : Bool :=
  recordBytes serde env (.sendInitiated (withPreview f (previewOfCap preview cap))) chunkShaCap <
    maxRecordBytes

/-- The binary search for the largest fitting preview; `lo` fits and `hi` does
not. Each turn halves the gap, so its size is fuel enough. -/
def searchPreview (fits : Nat → Bool) : Nat → Nat → Nat → Nat
  | 0, lo, _ => lo
  | fuel + 1, lo, hi =>
      if hi - lo > 1 then
        let mid := lo + (hi - lo) / 2
        if fits mid then searchPreview fits fuel mid hi else searchPreview fits fuel lo mid
      else lo

def fitPreview (payload : Payload) : Payload :=
  match payload with
  | .sendInitiated f =>
      match f.contentPreview with
      | some preview =>
          let len := preview.utf8ByteSize
          if previewFits serde env f preview len then payload
          else
            let lo := searchPreview (previewFits serde env f preview) len 0 len
            .sendInitiated (withPreview f (previewOfCap preview lo))
      | none => payload
  | _ => payload

def fitShaCap (payload : Payload) : Nat → Nat
  | 0 => 0
  | cap + 1 =>
      if recordBytes serde env payload (cap + 1) ≥ maxRecordBytes then fitShaCap payload cap
      else cap + 1

end Belt

/-! ### Writers -/

inductive Writer where
  | engine
  | mux
deriving DecidableEq, Repr

/-- A call of `emit`, with the bytes that its writes get out. The marker fields
are used only when the engine writer adds its rotation marker first. -/
structure Emission where
  writer : Writer
  env : Envelope
  payload : Payload
  cut : Nat
  markerEnv : Envelope
  markerCut : Nat

def eventsMaxBytes : Nat := 5 * 1024 * 1024

def eventsReserveBytes : Nat := 64 * 1024

namespace Emission

variable (serde : SerdeJson) (e : Emission)

def written : Payload :=
  match e.writer with
  | .engine => fitPreview serde e.env e.payload
  | .mux => e.payload

def shaCap : Nat :=
  match e.writer with
  | .engine => fitShaCap serde e.env (e.written serde) chunkShaCap
  | .mux => chunkShaCap

def entries : List (String × Json) := recordEntries e.env (e.written serde) (e.shaCap serde)

/-- `fit_line` of the engine writer, `build_line` of the attended one. -/
def line : List Char := buildRecordLine serde e.env (e.written serde) (e.shaCap serde)

def markerEntries : List (String × Json) :=
  recordEntries e.markerEnv .eventsTruncated chunkShaCap

def markerLine : List Char := buildRecordLine serde e.markerEnv .eventsTruncated chunkShaCap

/-- The rotation rule of the engine writer lets the record through. -/
def admitted (content : Bytes) : Bool :=
  match e.writer with
  | .mux => true
  | .engine =>
      !(decide (content.length > eventsMaxBytes + eventsReserveBytes) ||
        decide (content.length > eventsMaxBytes) && !e.payload.isTerminalClass)

def hasTruncationMarker (content : Bytes) : Bool :=
  match decodeUtf8 content with
  | some text => decide ("\"event\":\"events-truncated\"".toList <:+: text)
  | none => false

def afterMarker (content : Bytes) : Bytes :=
  match e.writer with
  | .mux => content
  | .engine =>
      if content.length > eventsMaxBytes ∧ hasTruncationMarker content = false then
        writeLine content (e.markerLine serde) e.markerCut
      else content

def emit (content : Bytes) : Bytes :=
  if e.admitted content then writeLine (e.afterMarker serde content) (e.line serde) e.cut
  else content

/-- The call returned `Ok`. -/
def Ok (content : Bytes) : Prop := e.admitted content = true ∧ Whole (e.line serde) e.cut

instance (content : Bytes) : Decidable (e.Ok serde content) :=
  inferInstanceAs (Decidable (_ ∧ _))

def record : EventRecord where
  pid := e.env.pid
  seq := e.env.seq
  event := e.payload.eventName
  ts := some e.env.ts
  session := e.env.session.filter (!·.isEmpty)
  name := e.env.name.filter (!·.isEmpty)
  obj := e.entries serde

end Emission

/-- The ledger after a run of calls, from a file that does not exist yet. -/
def ledgerAfter (serde : SerdeJson) (run : List Emission) : Bytes :=
  run.foldl (fun content e => e.emit serde content) []

/-- What a recorded event asks of the readers: the record is there, the terminal
lookups answer for it, and nothing readable was lost. -/
structure Readable (serde : SerdeJson) (content : Bytes) (e : Emission) : Prop where
  present : e.record serde ∈ (readEvents serde (e.emit serde content)).records
  firstTerminal : ∀ id, e.payload.sendId = some id → isTerminal e.payload.eventName = true →
    firstTerminalFor (readEvents serde (e.emit serde content)).records id =
      (firstTerminalFor (readEvents serde content).records id).or (some (e.record serde))
  hasTerminal : ∀ id, e.payload.sendId = some id → isTerminal e.payload.eventName = true →
    ledgerHasTerminal serde (e.emit serde content) id = true
  kept : ∀ r ∈ (readEvents serde content).records,
    r ∈ (readEvents serde (e.emit serde content)).records

structure Clean (serde : SerdeJson) (content : Bytes) (e : Emission) : Prop where
  marker : AtLineBoundary content
  record : AtLineBoundary (e.afterMarker serde content)

/-- The JSON library behaves at the objects that a call writes. -/
structure Lawful (serde : SerdeJson) (e : Emission) : Prop where
  record : serde.LawfulAt (.obj (e.entries serde))
  marker : serde.LawfulAt (.obj e.markerEntries)

variable {serde : SerdeJson} {e : Emission} {content : Bytes}

/-! ### A line is read back as its record -/

theorem fitPreview_keeps (env : Envelope) (p : Payload) :
    (fitPreview serde env p).eventName = p.eventName ∧
      (fitPreview serde env p).sendId = p.sendId := by
  cases p with
  | sendInitiated f =>
      simp only [fitPreview]
      split
      · split <;> exact ⟨rfl, rfl⟩
      · exact ⟨rfl, rfl⟩
  | _ => exact ⟨rfl, rfl⟩

theorem Emission.written_eventName : (e.written serde).eventName = e.payload.eventName := by
  unfold Emission.written
  split
  · exact (fitPreview_keeps _ _).1
  · rfl

theorem Emission.written_sendId : (e.written serde).sendId = e.payload.sendId := by
  unfold Emission.written
  split
  · exact (fitPreview_keeps _ _).2
  · rfl

section Fields

variable (env : Envelope) (p : Payload) (shaCap : Nat)

theorem get_recordEntries {key : String} (h : key ∉ payloadKeys) :
    (Json.obj (recordEntries env p shaCap)).get key =
      if "event" = key then some (.str p.eventName) else (Json.obj env.entries).get key := by
  rw [recordEntries, Json.get_obj_append, Json.get_obj_cons, get_entries_of_notMem h]
  split <;> simp

theorem asU64_u64 (n : UInt64) : (u64 n).asU64 = some n.toNat :=
  Json.asU64_natCast n.toNat_lt

theorem asU64_u32 (n : UInt32) : (u32 n).asU64 = some n.toNat := by
  have hlt := n.toNat_lt
  exact Json.asU64_natCast (by omega)

theorem strField_event : (Json.obj (recordEntries env p shaCap)).strField "event" =
    some p.eventName := by
  rw [Json.strField, get_recordEntries env p shaCap (by decide)]
  rfl

theorem u64Field_pid : (Json.obj (recordEntries env p shaCap)).u64Field "pid" =
    some env.pid.toNat := by
  have hget : (Json.obj env.entries).get "pid" = some (u32 env.pid) := by
    simp [Envelope.entries, optNum, optStr, Json.get_obj_append, Json.get_obj_cons]
  rw [Json.u64Field, get_recordEntries env p shaCap (by decide), if_neg (by decide), hget,
    Option.bind_some, asU64_u32]

theorem u64Field_seq : (Json.obj (recordEntries env p shaCap)).u64Field "seq" =
    some env.seq.toNat := by
  have hget : (Json.obj env.entries).get "seq" = some (u64 env.seq) := by
    simp [Envelope.entries, optNum, optStr, Json.get_obj_append, Json.get_obj_cons]
  rw [Json.u64Field, get_recordEntries env p shaCap (by decide), if_neg (by decide), hget,
    Option.bind_some, asU64_u64]

theorem strField_ts : (Json.obj (recordEntries env p shaCap)).strField "ts" = some env.ts := by
  rw [Json.strField, get_recordEntries env p shaCap (by decide)]
  simp [Envelope.entries, optNum, optStr, Json.get_obj_append, Json.get_obj_cons, Json.asStr]

theorem strField_session : (Json.obj (recordEntries env p shaCap)).strField "session" =
    env.session.filter (!·.isEmpty) := by
  rw [Json.strField, get_recordEntries env p shaCap (by decide)]
  simp only [Envelope.entries, optNum, optStr, Json.get_obj_append, Json.get_obj_cons]
  cases env.session.filter (!·.isEmpty) <;> simp [Json.asStr]

theorem strField_name : (Json.obj (recordEntries env p shaCap)).strField "name" =
    env.name.filter (!·.isEmpty) := by
  rw [Json.strField, get_recordEntries env p shaCap (by decide)]
  simp only [Envelope.entries, optNum, optStr, Json.get_obj_append, Json.get_obj_cons]
  cases env.name.filter (!·.isEmpty) <;> simp [Json.asStr]

theorem strField_sendId : (Json.obj (recordEntries env p shaCap)).strField "send_id" =
    p.sendId := by
  rw [Json.strField, recordEntries, Json.get_obj_append, Json.get_obj_cons,
    get_entries_sendId]
  cases p.sendId with
  | some id => rfl
  | none => simp [Envelope.entries, optNum, optStr, Json.get_obj_append, Json.get_obj_cons]

end Fields

theorem parseOne_line (h : Lawful serde e) :
    parseOne serde (e.line serde) = some (e.record serde) := by
  have hread : serde.fromStr (e.line serde) = some (.obj (e.entries serde)) :=
    h.record.fromStr_toString
  simp only [parseOne, hread, Option.bind_eq_bind, Option.bind_some, Emission.entries,
    strField_event, u64Field_pid, u64Field_seq, strField_ts, strField_session, strField_name]
  simp [Emission.record, Emission.entries, Emission.written_eventName]

theorem record_sendId : (e.record serde).sendId = e.payload.sendId := by
  rw [EventRecord.sendId, Emission.record, Emission.entries, strField_sendId,
    Emission.written_sendId]

theorem readSegment_line (h : Lawful serde e) (r : ReadResult) :
    (readSegment serde false r (e.line serde)).records = r.records ++ [e.record serde] := by
  have htrim : trim (e.line serde) = e.line serde := h.record.trim_toString
  have hne : (e.line serde).isEmpty = false := by
    rw [List.isEmpty_eq_false_iff]
    exact h.record.toString_ne_nil
  simp [readSegment, htrim, hne, parseOne_line h]

theorem lineIsTerminalFor_line (h : Lawful serde e) (id : String) :
    lineIsTerminalFor serde id (e.line serde) = isTerminalFor id e.payload := by
  have hread : serde.fromStr (e.line serde) = some (.obj (e.entries serde)) :=
    h.record.fromStr_toString
  simp [lineIsTerminalFor, isTerminalFor, hread, Emission.entries, strField_sendId,
    strField_event, Emission.written_sendId, Emission.written_eventName]

/-! ### One call on a line boundary -/

theorem readEvents_writeLine {line text : List Char} {cut : Nat} (hline : '\n' ∉ line)
    (hat : AtLineBoundary content) (htext : decodeUtf8 content = some text)
    (hwhole : Whole line cut) :
    readEvents serde (writeLine content line cut) =
      readSegment serde false (readEvents serde content) line := by
  have htail := tail_of_atLineBoundary hat htext
  simp only [readEvents, decodeUtf8_writeLine htext hwhole, htext, Option.getD_some, parseEvents,
    lines_writeLine hline htail, htail, List.isEmpty_nil, if_true, List.foldl_append,
    List.foldl_cons, List.foldl_nil]

theorem ledgerHasTerminal_writeLine {text : List Char} (h : Lawful serde e)
    (hat : AtLineBoundary content) (htext : decodeUtf8 content = some text)
    (hwhole : Whole (e.line serde) e.cut) (id : String) :
    ledgerHasTerminal serde (writeLine content (e.line serde) e.cut) id =
      (ledgerHasTerminal serde content id || isTerminalFor id e.payload) := by
  have hline : '\n' ∉ e.line serde := h.record.oneLine
  have htail := tail_of_atLineBoundary hat htext
  have htrim : trim (e.line serde) = e.line serde := h.record.trim_toString
  have hne : (e.line serde).isEmpty = false := by
    rw [List.isEmpty_eq_false_iff]
    exact h.record.toString_ne_nil
  simp only [ledgerHasTerminal, decodeUtf8_writeLine htext hwhole, htext,
    lines_writeLine hline htail, Lines.segments, htail]
  simp [htrim, hne, lineIsTerminalFor_line h]

def Emission.marker (e : Emission) : Emission :=
  { e with writer := .mux, env := e.markerEnv, payload := .eventsTruncated, cut := e.markerCut }

theorem afterMarker_keeps (h : Lawful serde e) (hclean : Clean serde content e)
    {text : List Char} (htext : decodeUtf8 content = some text) :
    (∃ text', decodeUtf8 (e.afterMarker serde content) = some text') ∧
      ∃ more, (readEvents serde (e.afterMarker serde content)).records =
          (readEvents serde content).records ++ more ∧
        ∀ r ∈ more, isTerminal r.event = false := by
  have hsame : (∃ text', decodeUtf8 content = some text') ∧
      ∃ more, (readEvents serde content).records = (readEvents serde content).records ++ more ∧
        ∀ r ∈ more, isTerminal r.event = false := ⟨⟨text, htext⟩, [], by simp, by simp⟩
  have hrecord := hclean.record
  unfold Emission.afterMarker at hrecord ⊢
  cases hwriter : e.writer with
  | mux => exact hsame
  | engine =>
      simp only [hwriter] at hrecord ⊢
      split
      · next hdue =>
          rw [if_pos hdue] at hrecord
          have hlawful : Lawful serde e.marker := ⟨h.marker, h.marker⟩
          have hline : '\n' ∉ e.markerLine serde := h.marker.oneLine
          rcases cut_of_atLineBoundary hline hrecord with hcut | hwhole
          · rw [hcut, writeLine_zero]
            exact hsame
          · refine ⟨⟨_, decodeUtf8_writeLine htext hwhole⟩, [e.marker.record serde], ?_, ?_⟩
            · rw [readEvents_writeLine hline hclean.marker htext hwhole]
              exact readSegment_line hlawful _
            · intro r hr
              rw [List.mem_singleton.mp hr]
              rfl
      · exact hsame

theorem readable_of_clean (h : Lawful serde e) (hclean : Clean serde content e)
    {text : List Char} (htext : decodeUtf8 content = some text) (hok : e.Ok serde content) :
    Readable serde content e := by
  obtain ⟨⟨text', htext'⟩, more, hmore, hquiet⟩ := afterMarker_keeps h hclean htext
  obtain ⟨hadmitted, hwhole⟩ := hok
  have hemit : e.emit serde content =
      writeLine (e.afterMarker serde content) (e.line serde) e.cut := if_pos hadmitted
  have hline : '\n' ∉ e.line serde := h.record.oneLine
  have hrecords : (readEvents serde (e.emit serde content)).records =
      (readEvents serde content).records ++ more ++ [e.record serde] := by
    rw [hemit, readEvents_writeLine hline hclean.record htext' hwhole, readSegment_line h, hmore]
  refine ⟨?_, ?_, ?_, ?_⟩
  · rw [hrecords]
    simp
  · intro id hid hterm
    have hnone : firstTerminalFor more id = none := by
      apply List.find?_eq_none.mpr
      intro r hr
      simp [hquiet r hr]
    have hself : firstTerminalFor [e.record serde] id = some (e.record serde) := by
      have hevent : isTerminal (e.record serde).event = true := hterm
      simp [firstTerminalFor, hevent, record_sendId, hid]
    unfold firstTerminalFor at *
    rw [hrecords, List.find?_append, List.find?_append, hnone, hself, Option.or_none]
  · intro id hid hterm
    rw [hemit, ledgerHasTerminal_writeLine h hclean.record htext' hwhole]
    simp [isTerminalFor, hid, hterm]
  · intro r hr
    rw [hrecords]
    simp [hr]

/-! ### Runs -/

def CleanRun (serde : SerdeJson) (run : List Emission) : Prop :=
  ∀ pre e post, run = pre ++ e :: post → Clean serde (ledgerAfter serde pre) e

theorem ledgerAfter_snoc (run : List Emission) :
    ledgerAfter serde (run ++ [e]) = e.emit serde (ledgerAfter serde run) := by
  simp [ledgerAfter]

theorem CleanRun.of_append {run more : List Emission} (h : CleanRun serde (run ++ more)) :
    CleanRun serde run := by
  rintro pre e post rfl
  exact h pre e (post ++ more) (by simp)

theorem decodes_of_emit (h : Lawful serde e) (hclean : Clean serde content e)
    {text : List Char} (htext : decodeUtf8 content = some text)
    (hat : AtLineBoundary (e.emit serde content)) :
    ∃ text', decodeUtf8 (e.emit serde content) = some text' := by
  obtain ⟨⟨text', htext'⟩, -⟩ := afterMarker_keeps h hclean htext
  have hline : '\n' ∉ e.line serde := h.record.oneLine
  unfold Emission.emit at hat ⊢
  split
  · next hadmitted =>
      rw [if_pos hadmitted] at hat
      rcases cut_of_atLineBoundary hline hat with hcut | hwhole
      · rw [hcut, writeLine_zero]
        exact ⟨text', htext'⟩
      · exact ⟨_, decodeUtf8_writeLine htext' hwhole⟩
  · exact ⟨text, htext⟩

theorem decodes_of_cleanRun {run : List Emission} (hlaw : ∀ e ∈ run, Lawful serde e)
    (hclean : CleanRun serde run) (hat : AtLineBoundary (ledgerAfter serde run)) :
    ∃ text, decodeUtf8 (ledgerAfter serde run) = some text := by
  induction run using List.reverseRecOn with
  | nil => exact ⟨[], decodeUtf8_encodeUtf8 []⟩
  | append_singleton run e ih =>
      have hstep : Clean serde (ledgerAfter serde run) e := hclean run e [] rfl
      obtain ⟨text, htext⟩ := ih (fun e he => hlaw e (List.mem_append_left _ he))
        hclean.of_append hstep.marker
      rw [ledgerAfter_snoc] at hat ⊢
      exact decodes_of_emit (hlaw e (by simp)) hstep htext hat

/-- In every run of calls that each find the file on a line boundary, cut short
or not, an event whose call returned `Ok` is readable, its terminal is found
and no record that was readable before the call is lost. -/
theorem readable_of_cleanRun (serde : SerdeJson) (run : List Emission)
    (hlaw : ∀ e ∈ run, Lawful serde e) (hclean : CleanRun serde run)
    (pre post : List Emission) (e : Emission) (hrun : run = pre ++ e :: post)
    (hok : e.Ok serde (ledgerAfter serde pre)) : Readable serde (ledgerAfter serde pre) e := by
  subst hrun
  have hstep := hclean pre e post rfl
  obtain ⟨text, htext⟩ := decodes_of_cleanRun
    (fun x hx => hlaw x (List.mem_append_left _ hx)) hclean.of_append hstep.marker
  exact readable_of_clean (hlaw e (by simp)) hstep htext hok

theorem ledgerHasTerminal_ledgerAfter {run : List Emission} (hmux : ∀ e ∈ run, e.writer = .mux)
    (hlaw : ∀ e ∈ run, Lawful serde e) (hwhole : ∀ e ∈ run, Whole (e.line serde) e.cut)
    (id : String) :
    ledgerHasTerminal serde (ledgerAfter serde run) id =
      (run.map Emission.payload).any (isTerminalFor id) := by
  suffices h : AtLineBoundary (ledgerAfter serde run) ∧
      (∃ text, decodeUtf8 (ledgerAfter serde run) = some text) ∧
      ledgerHasTerminal serde (ledgerAfter serde run) id =
        (run.map Emission.payload).any (isTerminalFor id) from h.2.2
  induction run using List.reverseRecOn with
  | nil =>
      refine ⟨.inl rfl, ⟨[], decodeUtf8_encodeUtf8 []⟩, ?_⟩
      have hempty : decodeUtf8 (ledgerAfter serde []) = some [] := decodeUtf8_encodeUtf8 []
      simp only [ledgerHasTerminal, hempty]
      rfl
  | append_singleton run e ih =>
      obtain ⟨hat, ⟨text, htext⟩, hany⟩ := ih
        (fun x hx => hmux x (List.mem_append_left _ hx))
        (fun x hx => hlaw x (List.mem_append_left _ hx))
        (fun x hx => hwhole x (List.mem_append_left _ hx))
      have hwriter := hmux e (by simp)
      have hline := hwhole e (by simp)
      have hemit : ledgerAfter serde (run ++ [e]) =
          writeLine (ledgerAfter serde run) (e.line serde) e.cut := by
        rw [ledgerAfter_snoc]
        simp only [Emission.emit, Emission.admitted, Emission.afterMarker, hwriter, if_true]
      rw [hemit]
      refine ⟨atLineBoundary_of_whole hline, ⟨_, decodeUtf8_writeLine htext hline⟩, ?_⟩
      rw [ledgerHasTerminal_writeLine (hlaw e (by simp)) hat htext hline, hany]
      simp

/-- A terminal of the attended writer, of whose line `cut` bytes get out. -/
def seen (cut : Nat) : Emission where
  writer := .mux
  env := { ts := "t", pid := 1, seq := 0 }
  payload := .messageSeen "s" "h"
  cut := cut
  markerEnv := { ts := "t", pid := 1, seq := 0 }
  markerCut := 0

/-- The JSON library at the records of `seen`. -/
def seenJson : SerdeJson :=
  .knowing [.obj (recordEntries (seen 0).env (seen 0).payload chunkShaCap),
    .obj (seen 0).markerEntries]

theorem seen_lawful (cut : Nat) : Lawful seenJson (seen cut) := by
  obtain ⟨hrecord, hmarker⟩ : seenJson.LawfulAt _ ∧ seenJson.LawfulAt _ :=
    SerdeJson.lawfulAt_knowing_pair (floatless_recordEntries _ _ _) (floatless_recordEntries _ _ _)
      (by decide) (by decide)
  exact ⟨hrecord, hmarker⟩

theorem readable_seen :
    (seen 100).Ok seenJson (ledgerAfter seenJson []) ∧
      Readable seenJson (ledgerAfter seenJson []) (seen 100) := by
  have hclean : CleanRun seenJson [seen 100] := by
    intro pre e post h
    have hpre : pre = [] := by
      cases pre with
      | nil => rfl
      | cons x pre => cases pre <;> cases (List.cons.inj h).2
    subst hpre
    obtain ⟨rfl, -⟩ := List.cons.inj h
    exact ⟨.inl rfl, .inl rfl⟩
  have hok : (seen 100).Ok seenJson (ledgerAfter seenJson []) := ⟨rfl, by decide⟩
  have hlaw : ∀ e ∈ [seen 100], Lawful seenJson e := by
    intro e he
    rw [List.mem_singleton.mp he]
    exact seen_lawful 100
  exact ⟨hok, readable_of_cleanRun seenJson [seen 100] hlaw hclean [] [] (seen 100) rfl hok⟩

/-- One byte of an earlier line is enough to lose the next event. -/
theorem torn_seen_not_readable :
    (seen 100).Ok seenJson (ledgerAfter seenJson [seen 1]) ∧
      ¬ Readable seenJson (ledgerAfter seenJson [seen 1]) (seen 100) := by
  refine ⟨⟨rfl, by decide⟩, fun h => ?_⟩
  have hcontent : (seen 100).emit seenJson (ledgerAfter seenJson [seen 1]) =
      encodeUtf8 ('{' :: ((seen 100).line seenJson ++ ['\n'])) := by decide
  have hlost : (parseEvents seenJson
      ('{' :: ((seen 100).line seenJson ++ ['\n']))).records.length = 0 := by decide
  have hpresent := h.present
  rw [readEvents, hcontent, decodeUtf8_encodeUtf8, Option.getD_some,
    List.length_eq_zero_iff.mp hlost] at hpresent
  cases hpresent

end QuorumDispatch.DeliveryEvents
