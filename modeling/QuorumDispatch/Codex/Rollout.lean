import QuorumDispatch.Codex.Inject
import QuorumDispatch.Lib.Json
import QuorumDispatch.Lib.Pairing
import QuorumDispatch.Lib.Split
import QuorumDispatch.Sessions.Rows

/-!
The status of a Codex session, read off its rollout without a connection. The rollout is read as text,
line by line; a turn that was started and has no completion makes the session busy.
-/

namespace QuorumDispatch.Codex

open Lib Sessions

/-! ### Reading a rollout -/

/-- `serde_json::from_str` into a value. -/
abbrev ParseJson := List Char → Option Json

/-- `parse_line`, as far as the line opens or closes a turn. -/
def parseLine (parse : ParseJson) (raw : List Char) : Option RolloutLine := do
  let v ← parse raw
  match v with
  | .obj _ =>
      let payload := v.get "payload"
      let turnId := (payload.bind (·.get "turn_id")).bind Json.asStr
      some <| match v.strField "type", (payload.bind (·.get "type")).bind Json.asStr with
        | some "event_msg", some "task_started" => .taskStarted turnId
        | some "event_msg", some "task_complete" => .taskComplete turnId
        | _, _ => .other
  | _ => none

def lineOf (parse : ParseJson) (raw : List Char) : Option RolloutLine :=
  if (trim raw).isEmpty then none else parseLine parse raw

def readLines (parse : ParseJson) (content : Bytes) : List RolloutLine :=
  match decodeUtf8 content with
  | none => []
  | some text => ((text.splitOn '\n').filter fun raw => !(trim raw).isEmpty).filterMap (parseLine parse)

def RolloutLine.isAnchor : RolloutLine → Bool
  | taskStarted _ | taskComplete _ => true
  | other => false

def deriveStatus (lines : List RolloutLine) : Option SessionStatus :=
  if lines.any (·.isAnchor) then some (if (openTurns lines).isEmpty then .idle else .busy) else none

/-! ### Lines of bytes -/

section Bytes

variable {parse : ParseJson} {lines : List Bytes} {content tail : Bytes}

def lineAt (parse : ParseJson) (raw : Bytes) : Option RolloutLine := (decodeUtf8 raw).bind (lineOf parse)

def fileOf (lines : List Bytes) (tail : Bytes) : Bytes := lines.flatMap (· ++ [newline]) ++ tail

/-- What the reader gets: every line and the rest as well, if all of it is text. -/
def shown (parse : ParseJson) (lines : List Bytes) (tail : Bytes) : List RolloutLine :=
  if (lines ++ [tail]).all fun raw => (decodeUtf8 raw).isSome then (lines ++ [tail]).filterMap (lineAt parse)
  else []

theorem readLines_of_text {text : List Char} (h : decodeUtf8 content = some text) :
    readLines parse content = (text.splitOn '\n').filterMap (lineOf parse) := by
  rw [readLines, h]
  dsimp only
  rw [List.filterMap_filter]
  refine List.filterMap_congr fun raw _ => ?_
  rw [lineOf]
  cases (trim raw).isEmpty <;> rfl

theorem lineAt_encodeUtf8 (raw : List Char) : lineAt parse (encodeUtf8 raw) = lineOf parse raw := by
  rw [lineAt, decodeUtf8_encodeUtf8, Option.bind_some]

theorem fileOf_encodeUtf8 (pieces : List (List Char)) (rest : List Char) :
    fileOf (pieces.map encodeUtf8) (encodeUtf8 rest) = encodeUtf8 (pieces.flatMap (· ++ ['\n']) ++ rest) := by
  induction pieces with
  | nil => rfl
  | cons piece pieces ih =>
      rw [fileOf, List.map_cons, List.flatMap_cons, List.append_assoc, ← fileOf, ih, List.flatMap_cons,
        List.append_assoc (piece ++ _), encodeUtf8_append (piece ++ _), encodeUtf8_append piece, encodeUtf8_newline]

theorem map_encodeUtf8_splitOn {text : List Char} (hlines : ∀ raw ∈ lines, newline ∉ raw) (htail : newline ∉ tail)
    (h : decodeUtf8 (fileOf lines tail) = some text) : (text.splitOn '\n').map encodeUtf8 = lines ++ [tail] := by
  obtain ⟨pieces, rest, hpieces, hrest, rfl⟩ := exists_closed_tail '\n' text
  have hbytes := encodeUtf8_of_decodeUtf8 h
  rw [← fileOf_encodeUtf8] at hbytes
  have hencoded : ∀ raw ∈ pieces.map encodeUtf8, newline ∉ raw := by
    intro raw hraw
    obtain ⟨piece, hpiece, rfl⟩ := List.mem_map.mp hraw
    exact newline_notMem_encodeUtf8 (hpieces piece hpiece)
  have hsplit := congrArg (·.splitOn newline) hbytes
  simp only [fileOf] at hsplit
  rw [splitOn_closed_tail hencoded (newline_notMem_encodeUtf8 hrest), splitOn_closed_tail hlines htail] at hsplit
  rw [splitOn_closed_tail hpieces hrest, List.map_append]
  exact hsplit

theorem exists_decodeUtf8_fileOf (h : ∀ raw ∈ lines ++ [tail], (decodeUtf8 raw).isSome = true) :
    ∃ text, decodeUtf8 (fileOf lines tail) = some text := by
  have hencoded (raw : Bytes) (hraw : raw ∈ lines ++ [tail]) : encodeUtf8 ((decodeUtf8 raw).getD []) = raw := by
    obtain ⟨cs, hcs⟩ := Option.isSome_iff_exists.mp (h raw hraw)
    rw [hcs]
    exact encodeUtf8_of_decodeUtf8 hcs
  have hlines : (lines.map fun raw => (decodeUtf8 raw).getD []).map encodeUtf8 = lines := by
    rw [List.map_map]
    exact (List.map_congr_left fun raw hraw => hencoded raw (List.mem_append_left _ hraw)).trans (List.map_id _)
  have hfile := fileOf_encodeUtf8 (lines.map fun raw => (decodeUtf8 raw).getD []) ((decodeUtf8 tail).getD [])
  rw [hlines, hencoded tail (List.mem_append_right _ (List.mem_singleton_self _))] at hfile
  rw [hfile]
  exact ⟨_, decodeUtf8_encodeUtf8 _⟩

/-- **What the reader gets of whole lines and a rest.** -/
theorem readLines_fileOf (hlines : ∀ raw ∈ lines, newline ∉ raw) (htail : newline ∉ tail) :
    readLines parse (fileOf lines tail) = shown parse lines tail := by
  rw [shown]
  cases hfile : decodeUtf8 (fileOf lines tail) with
  | none =>
      rw [readLines, hfile, if_neg fun hall => ?_]
      obtain ⟨text, htext⟩ := exists_decodeUtf8_fileOf (List.all_eq_true.mp hall)
      rw [hfile] at htext
      cases htext
  | some text =>
      have hpieces := map_encodeUtf8_splitOn hlines htail hfile
      rw [readLines_of_text hfile, ← hpieces, if_pos (by simp), List.filterMap_map]
      exact List.filterMap_congr fun raw _ => (lineAt_encodeUtf8 raw).symm

end Bytes

/-! ### Turns -/

def RolloutLine.mark : RolloutLine → Option (Mark String)
  | taskStarted turnId => some (.opens (turnId.getD ""))
  | taskComplete turnId => some (.closes (turnId.getD ""))
  | other => none

def marks (lines : List RolloutLine) : List (Mark String) := lines.filterMap RolloutLine.mark

/-- The started turns whose completion is nowhere among the lines. -/
def unfinished (lines : List RolloutLine) : List String :=
  (Mark.keys (marks lines)).filter fun id => .closes id ∉ marks lines

/-- The status follows the turns of the complete lines, and the open turn is the last unfinished one. -/
structure FollowsTurns (complete : List RolloutLine) (status : Option SessionStatus) (openTurn : Option String) :
    Prop where
  busy : status = some .busy ↔ unfinished complete ≠ []
  idle : status = some .idle ↔ complete.any (·.isAnchor) = true ∧ unfinished complete = []
  isSome : openTurn.isSome = true ↔ status = some .busy
  last : ∀ id, openTurn = some id → (unfinished complete).getLast? = some id

/-- The lines that were read count like the complete ones: both have anchors or neither, an end piece of
what was read has more starts than completions exactly if a turn is unfinished, and then the last turn
without a completion behind it is the last unfinished one. -/
structure CountsLike (read complete : List RolloutLine) : Prop where
  anchors : marks read = [] ↔ marks complete = []
  outnumbers : Mark.Outnumbers (marks read) ↔ unfinished complete ≠ []
  last : unfinished complete ≠ [] →
    (Mark.unanswered (marks read)).getLast? = (unfinished complete).getLast?

section Turns

variable {lines complete : List RolloutLine}

theorem openTurns_eq (lines : List RolloutLine) : openTurns lines = Mark.opened (marks lines) := by
  rw [openTurns, Mark.opened, marks, List.foldl_filterMap]
  congr 1
  ext opened line : 2
  cases line <;> rfl

theorem any_isAnchor_iff : lines.any (·.isAnchor) = true ↔ marks lines ≠ [] := by
  rw [marks, ne_eq, List.filterMap_eq_nil_iff, List.any_eq_true]
  simp only [not_forall]
  refine exists_congr fun line => ?_
  rw [exists_prop]
  refine and_congr_right fun _ => ?_
  cases line <;> simp [RolloutLine.isAnchor, RolloutLine.mark]

theorem deriveStatus_busy_iff : deriveStatus lines = some .busy ↔ Mark.opened (marks lines) ≠ [] := by
  rw [deriveStatus, openTurns_eq]
  by_cases hanchor : lines.any (·.isAnchor) = true
  · rw [if_pos hanchor]
    cases Mark.opened (marks lines) <;> simp
  · have hnil : marks lines = [] := by
      by_contra hne
      exact hanchor (any_isAnchor_iff.mpr hne)
    rw [if_neg hanchor, hnil]
    exact iff_of_false nofun (absurd rfl)

theorem deriveStatus_idle_iff : deriveStatus lines = some .idle ↔
    marks lines ≠ [] ∧ Mark.opened (marks lines) = [] := by
  rw [deriveStatus, openTurns_eq, ← any_isAnchor_iff]
  by_cases hanchor : lines.any (·.isAnchor) = true
  · rw [if_pos hanchor, and_iff_right hanchor]
    cases Mark.opened (marks lines) <;> simp
  · rw [if_neg hanchor]
    exact iff_of_false nofun fun h => hanchor h.1

theorem openTurnId_eq (hnames : ∀ id ∈ Mark.keys (marks lines), id ≠ "")
    (hnodup : (Mark.keys (marks lines)).Nodup) : openTurnId lines = (Mark.opened (marks lines)).getLast? := by
  have hopened : ∀ id ∈ (Mark.opened (marks lines)).reverse, (!id.isEmpty) = true := by
    intro id hid
    have hkey := (Mark.unanswered_sublist_keys _).subset
      ((Mark.opened_suffix_unanswered hnodup).subset (List.mem_reverse.mp hid))
    simpa using hnames id hkey
  rw [openTurnId, openTurns_eq, ← List.head?_reverse]
  cases hreverse : (Mark.opened (marks lines)).reverse with
  | nil => rfl
  | cons id rest =>
      rw [hreverse] at hopened
      exact List.find?_cons_of_pos (hopened id List.mem_cons_self)

theorem followsTurns_iff (hnames : ∀ id ∈ Mark.keys (marks lines), id ≠ "")
    (hnodup : (Mark.keys (marks lines)).Nodup) :
    FollowsTurns complete (deriveStatus lines) (openTurnId lines) ↔ CountsLike lines complete := by
  have hlast (hne : Mark.opened (marks lines) ≠ []) :
      (Mark.opened (marks lines)).getLast? = (Mark.unanswered (marks lines)).getLast? := by
    obtain ⟨older, holder⟩ := Mark.opened_suffix_unanswered hnodup
    rw [← holder, List.getLast?_append_of_ne_nil _ hne]
  have hbusy : deriveStatus lines = some .busy ↔ Mark.Outnumbers (marks lines) :=
    deriveStatus_busy_iff.trans Mark.opened_ne_nil_iff
  have hsome : (openTurnId lines).isSome = true ↔ deriveStatus lines = some .busy := by
    rw [openTurnId_eq hnames hnodup, deriveStatus_busy_iff, List.getLast?_isSome]
  constructor
  · intro h
    refine ⟨?_, hbusy.symm.trans h.busy, fun hne => ?_⟩
    · -- neither has an anchor exactly if the status is neither of the two
      have hidle := deriveStatus_idle_iff.symm.trans h.idle
      rw [any_isAnchor_iff] at hidle
      have hopen := deriveStatus_busy_iff.symm.trans h.busy
      have hnil (ms : List (Mark String)) (hms : ms = []) : Mark.opened ms = [] := hms ▸ rfl
      have hnil' (hms : marks complete = []) : unfinished complete = [] := by rw [unfinished, hms]; rfl
      by_cases hread : Mark.opened (marks lines) = []
      · have hunfinished : unfinished complete = [] := by_contra fun hne => hopen.mpr hne hread
        exact not_iff_not.mp ((and_iff_left hread).symm.trans (hidle.trans (and_iff_left hunfinished)))
      · exact iff_of_false (fun hms => hread (hnil _ hms)) fun hms => hopen.mp hread (hnil' hms)
    · have hopened := deriveStatus_busy_iff.mp (h.busy.mpr hne)
      obtain ⟨id, hid⟩ := Option.isSome_iff_exists.mp (hsome.mpr (h.busy.mpr hne))
      rw [← hlast hopened, ← openTurnId_eq hnames hnodup, hid, h.last id hid]
  · intro h
    refine ⟨hbusy.trans h.outnumbers, ?_, hsome, fun id hid => ?_⟩
    · rw [deriveStatus_idle_iff, any_isAnchor_iff]
      refine and_congr (not_congr h.anchors) (not_iff_not.mp ?_)
      exact Mark.opened_ne_nil_iff.trans h.outnumbers
    · have hopened := deriveStatus_busy_iff.mp (hsome.mp (Option.isSome_iff_exists.mpr ⟨id, hid⟩))
      rw [← h.last (h.outnumbers.mp (Mark.opened_ne_nil_iff.mp hopened)), ← hlast hopened,
        ← openTurnId_eq hnames hnodup, hid]

end Turns

/-- **The status follows the turns of the complete lines exactly if what was read counts like them.** -/
theorem rollout_followsTurns_iff (parse : ParseJson) (lines : List Bytes) (tail : Bytes)
    (hlines : ∀ raw ∈ lines, newline ∉ raw) (htail : newline ∉ tail)
    (hnames : ∀ id ∈ Mark.keys (marks ((lines ++ [tail]).filterMap (lineAt parse))), id ≠ "")
    (hnodup : (Mark.keys (marks ((lines ++ [tail]).filterMap (lineAt parse)))).Nodup) :
    FollowsTurns (lines.filterMap (lineAt parse)) (deriveStatus (readLines parse (fileOf lines tail)))
        (openTurnId (readLines parse (fileOf lines tail))) ↔
      CountsLike (shown parse lines tail) (lines.filterMap (lineAt parse)) := by
  rw [readLines_fileOf hlines htail]
  by_cases hall : ((lines ++ [tail]).all fun raw => (decodeUtf8 raw).isSome) = true
  · rw [shown, if_pos hall]
    exact followsTurns_iff hnames hnodup
  · rw [shown, if_neg hall]
    exact @followsTurns_iff [] _ (fun id hid => nomatch hid) List.nodup_nil

/-! ### A completion without its start -/

def anchorJson (kind turnId : String) : Json :=
  .obj [("type", .str "event_msg"), ("payload", .obj [("type", .str kind), ("turn_id", .str turnId)])]

/-- The turn `t2` was started; of `t1` only the completion is there. -/
def lostStart : List Json := [anchorJson "task_started" "t2", anchorJson "task_complete" "t1"]

def lostStartParse : ParseJson := fun raw => lostStart.find? fun j => j.compact = raw

def lostStartLines : List Bytes := lostStart.map fun j => encodeUtf8 j.compact

theorem anchorJson_compact (kind turnId : String) :
    (anchorJson kind turnId).compact =
      ('{' :: (Json.quote "type" ++ ':' :: (Json.quote "event_msg" ++ ',' :: (Json.quote "payload" ++ ':' :: '{' ::
        (Json.quote "type" ++ [':']))))) ++
      (Json.quote kind ++ ',' :: (Json.quote "turn_id" ++ ':' :: (Json.quote turnId ++ ['}', '}']))) := by
  simp [anchorJson, Json.compact, Json.compactEntries]

theorem lostStart_compact_ne :
    (anchorJson "task_started" "t2").compact ≠ (anchorJson "task_complete" "t1").compact := by
  intro h
  rw [anchorJson_compact, anchorJson_compact] at h
  have hkinds := List.append_cancel_left h
  simp [Json.quote, Json.escape] at hkinds

theorem lineOf_anchorJson {kind turnId : String}
    (h : parse (anchorJson kind turnId).compact = some (anchorJson kind turnId)) :
    lineAt parse (encodeUtf8 (anchorJson kind turnId).compact) =
      parseLine (fun _ => some (anchorJson kind turnId)) [] := by
  have hne : ((anchorJson kind turnId).compact).isEmpty = false := by
    rw [anchorJson_compact]
    rfl
  rw [lineAt_encodeUtf8, lineOf, anchorJson, Json.trim_compact_obj, ← anchorJson, hne, parseLine, h]
  rfl

theorem lostStart_complete :
    lostStartLines.filterMap (lineAt lostStartParse) = [.taskStarted (some "t2"), .taskComplete (some "t1")] := by
  have hstarted : lostStartParse (anchorJson "task_started" "t2").compact = some (anchorJson "task_started" "t2") := by
    simp [lostStartParse, lostStart]
  have hcomplete :
      lostStartParse (anchorJson "task_complete" "t1").compact = some (anchorJson "task_complete" "t1") := by
    simp [lostStartParse, lostStart, lostStart_compact_ne]
  simp only [lostStartLines, lostStart, List.map_cons, List.map_nil, List.filterMap_cons, List.filterMap_nil,
    lineOf_anchorJson hstarted, lineOf_anchorJson hcomplete]
  decide

theorem lostStart_lines : ∀ raw ∈ lostStartLines, newline ∉ raw := by
  intro raw hraw
  obtain ⟨j, hj, rfl⟩ := List.mem_map.mp hraw
  have hfloatless : ∀ j ∈ lostStart, j.floatless := by decide
  exact newline_notMem_encodeUtf8 (Json.newline_notMem_compact (hfloatless j hj))

theorem lostStart_all : (lostStartLines ++ [[]]).filterMap (lineAt lostStartParse) =
    [.taskStarted (some "t2"), .taskComplete (some "t1")] := by
  have hrest : lineAt lostStartParse [] = none := rfl
  rw [List.filterMap_append, lostStart_complete, List.filterMap_cons_none hrest, List.filterMap_nil, List.append_nil]

theorem lostStart_status : deriveStatus (readLines lostStartParse (fileOf lostStartLines [])) = some .idle := by
  have hall : ((lostStartLines ++ [[]]).all fun raw => (decodeUtf8 raw).isSome) = true := by
    have hempty : decodeUtf8 [] = some [] := decodeUtf8_encodeUtf8 []
    simp [lostStartLines, lostStart, hempty]
  rw [readLines_fileOf lostStart_lines List.not_mem_nil, shown, if_pos hall, lostStart_all]
  decide

/-- The turn that runs is taken for a finished one. -/
theorem lost_start_idle : ¬FollowsTurns (lostStartLines.filterMap (lineAt lostStartParse))
    (deriveStatus (readLines lostStartParse (fileOf lostStartLines [])))
    (openTurnId (readLines lostStartParse (fileOf lostStartLines []))) := by
  intro h
  have hbusy := h.busy
  rw [lostStart_status, lostStart_complete] at hbusy
  exact absurd (hbusy.mpr (by decide)) nofun

theorem rollout_followsTurns_lost_start :
    FollowsTurns (lostStartLines.filterMap (lineAt lostStartParse))
        (deriveStatus (readLines lostStartParse (fileOf lostStartLines [])))
        (openTurnId (readLines lostStartParse (fileOf lostStartLines []))) ↔
      CountsLike (shown lostStartParse lostStartLines []) (lostStartLines.filterMap (lineAt lostStartParse)) :=
  rollout_followsTurns_iff lostStartParse lostStartLines [] lostStart_lines List.not_mem_nil
    (by rw [lostStart_all]; decide) (by rw [lostStart_all]; decide)

end QuorumDispatch.Codex
