import QuorumDispatch.Transcript.Jsonl

/-!
Waiting for the reply to a message. The loop reads the transcript and then the status; it anchors
the message once, is over when the session is idle with the message anchored, and reads on until
the transcript is quiet, so that what it returns was read after the idle status.
-/

namespace QuorumDispatch.Transcript

open Lib

/-! ### The loop -/

inductive WaitDecision where
  /-- The message has not appeared yet. -/
  | waiting
  /-- It has, and the session is still busy. -/
  | collecting
  | complete
deriving DecidableEq, Repr

def decideWait (anchorFound : Bool) (status : Option String) : WaitDecision :=
  if !anchorFound then .waiting
  else if status = some "idle" then .complete
  else .collecting

inductive WaitOutcome where
  | complete (lines : List ParsedLine) (anchor : Option Nat)
  | died
  | timedOut (anchored : Bool)
  | sourceError (reason : String)

/-- What the calls of a wait meet with, each kind of call counted by itself: the text behind the
start offset, which only grows, the reads that fail, the statuses and the clock. -/
structure Watch where
  text : Nat → List Char
  grows : ∀ i, text i <+: text (i + 1)
  lost : Nat → Option String
  status : Nat → Option String
  now : Nat → Int

def Watch.readLines (serde : SerdeJson) (w : Watch) (i : Nat) : Except String (List ParsedLine) :=
  match w.lost i with
  | some reason => .error reason
  | none => .ok (parseJsonlSlice serde (w.text i))

def maxSettleReads : Nat := 5

def quiescent (fresh prev : List ParsedLine) : Bool :=
  fresh.length == prev.length && (fresh.zip prev).all fun lines => lines.1.raw == lines.2.raw

/-- Read until two reads agree, `left` times at most; the next read is the `i`-th. -/
def settleSnapshot (serde : SerdeJson) (w : Watch) :
    Nat → Nat → List ParsedLine → Except String (List ParsedLine)
  | 0, _, prev => .ok prev
  | left + 1, i, prev =>
      match w.readLines serde i with
      | .error reason => .error reason
      | .ok fresh =>
          if quiescent fresh prev then .ok fresh else settleSnapshot serde w left (i + 1) fresh

/-- The loop from its `i`-th turn on, for `fuel` turns; none while it still waits. -/
def waitFrom (serde : SerdeJson) (w : Watch) (message : String) (timeout : Int) :
    Nat → Nat → Option Nat → Option WaitOutcome
  | 0, _, _ => none
  | fuel + 1, i, anchor =>
      if w.now (i + 1) - w.now 0 < timeout then
        match w.readLines serde i with
        | .error reason => some (.sourceError reason)
        | .ok lines =>
            let anchor := anchor <|> findAnchor lines message
            match w.status i with
            | none => some .died
            | some status =>
                match decideWait anchor.isSome (some status) with
                | .complete =>
                    some (match settleSnapshot serde w maxSettleReads (i + 1) lines with
                      | .ok snap => .complete snap anchor
                      | .error reason => .sourceError reason)
                | .collecting | .waiting => waitFrom serde w message timeout fuel (i + 1) anchor
      else some (.timedOut anchor.isSome)

def runWaitLoop (serde : SerdeJson) (w : Watch) (message : String) (timeout : Int) (fuel : Nat) :
    Option WaitOutcome :=
  waitFrom serde w message timeout fuel 0 none

/-! ### What is extracted -/

def noTextResponse : String := "(no text response)"

inductive ExtractMode where
  | raw
  | default
  | full
deriving DecidableEq, Repr

structure Blocks where
  text : List String := []
  all : List String := []

def contentBlocks (obj : Json) : List Json :=
  match (obj.get "message").bind (·.get "content") with
  | none => []
  | some (.arr items) => items
  | some content => [content]

def stopReason (obj : Json) : Option String :=
  (obj.get "message").bind (·.strField "stop_reason")

def nonemptyText (b : Json) : Option String :=
  (blockText b).filter fun text => !text.isEmpty

def toolLine (serde : SerdeJson) (b : Json) : String :=
  let input := (serde.toString ((b.get "input").getD .null)).take 200
  "[tool: " ++ (b.strField "name").getD "unknown" ++ "] " ++ String.ofList input

def pushBlock (serde : SerdeJson) (mode : ExtractMode) (stop : Option String) (acc : Blocks) (b : Json) :
    Blocks :=
  let acc := match nonemptyText b with
    | some text =>
        { text := if stop = some "end_turn" then acc.text ++ [text] else acc.text
          all := acc.all ++ [text] }
    | none => acc
  let acc := if mode = .full ∧ b.strField "type" = some "thinking" then
      { acc with all := acc.all ++ ((b.strField "thinking").map ("[thinking] " ++ ·)).toList }
    else acc
  if mode = .full ∧ b.strField "type" = some "tool_use" then
    { acc with all := acc.all ++ [toolLine serde b] }
  else acc

def pushLine (serde : SerdeJson) (mode : ExtractMode) (acc : Blocks) (p : ParsedLine) : Blocks :=
  if p.value.strField "type" = some "assistant" then
    (contentBlocks p.value).foldl (pushBlock serde mode (stopReason p.value)) acc
  else acc

def afterAnchor (lines : List ParsedLine) (anchor : Option Nat) : List ParsedLine :=
  match anchor with
  | some i => lines.drop (i + 1)
  | none => lines

def extractResponse (serde : SerdeJson) (lines : List ParsedLine) (anchor : Option Nat)
    (mode : ExtractMode) : String :=
  let newLines := afterAnchor lines anchor
  if mode = .raw then "\n".intercalate (newLines.map fun p => String.ofList p.raw)
  else
    let blocks := newLines.foldl (pushLine serde mode) {}
    if mode = .full then "\n\n".intercalate blocks.all
    else
      let joined := "\n\n".intercalate blocks.text
      if joined.isEmpty then noTextResponse else joined

def captureDefect (lines : List ParsedLine) (anchor : Option Nat) (mode : ExtractMode) : String :=
  "the response turn completed (anchored, session idle) but extraction found no response content: " ++
    toString (afterAnchor lines anchor).length ++
    " transcript line(s) after the anchor, none yielding " ++
    match mode with
    | .default => "assistant end_turn text"
    | .full => "assistant text/thinking/tool blocks"
    | .raw => "raw lines"

def captureOrDefect (serde : SerdeJson) (lines : List ParsedLine) (anchor : Option Nat)
    (mode : ExtractMode) : Except String String :=
  let body := extractResponse serde lines anchor mode
  let empty := match mode with
    | .default => body == noTextResponse
    | .full | .raw => body.isEmpty
  if !empty then .ok body else .error (captureDefect lines anchor mode)

variable {serde : SerdeJson} {w : Watch} {message : String} {timeout : Int}

/-! ### The text that grows -/

theorem Watch.text_mono (w : Watch) {i j : Nat} (h : i ≤ j) : w.text i <+: w.text j := by
  induction h with
  | refl => exact List.prefix_refl _
  | step _ ih => exact ih.trans (w.grows _)

theorem Watch.readLines_eq_ok {i : Nat} {lines : List ParsedLine}
    (h : w.readLines serde i = .ok lines) : lines = parseJsonlSlice serde (w.text i) := by
  unfold Watch.readLines at h
  split at h
  · cases h
  · exact (Except.ok.inj h).symm

theorem settleSnapshot_eq_ok {left i : Nat} {prev snap : List ParsedLine}
    (h : settleSnapshot serde w (left + 1) i prev = .ok snap) :
    ∃ j, i ≤ j ∧ snap = parseJsonlSlice serde (w.text j) := by
  induction left generalizing i prev with
  | zero =>
      rw [settleSnapshot] at h
      split at h
      · cases h
      · rename_i fresh hread
        refine ⟨i, le_refl i, ?_⟩
        rw [← Watch.readLines_eq_ok hread]
        split at h
        · exact (Except.ok.inj h).symm
        · rw [settleSnapshot] at h
          exact (Except.ok.inj h).symm
  | succ left ih =>
      rw [settleSnapshot] at h
      split at h
      · cases h
      · rename_i fresh hread
        split at h
        · refine ⟨i, le_refl i, ?_⟩
          rw [← Watch.readLines_eq_ok hread]
          exact (Except.ok.inj h).symm
        · obtain ⟨j, hj, hsnap⟩ := ih h
          exact ⟨j, by omega, hsnap⟩

/-! ### The anchor -/

/-- The anchor that the turns before the `i`-th have found, and in which of them. -/
inductive Anchored (serde : SerdeJson) (w : Watch) (message : String) : Nat → Option Nat → Prop
  | none {i : Nat} (h : ∀ j < i, ∀ lines, w.readLines serde j = .ok lines →
      findAnchor lines message = none) : Anchored serde w message i Option.none
  | found {i : Nat} (j k : Nat) (lines : List ParsedLine) (hj : j < i)
      (hread : w.readLines serde j = .ok lines) (hanchor : findAnchor lines message = some k)
      (h : ∀ j' < j, ∀ lines, w.readLines serde j' = .ok lines →
        findAnchor lines message = Option.none) : Anchored serde w message i (some k)

theorem Anchored.turn {i : Nat} {anchor : Option Nat} {lines : List ParsedLine}
    (h : Anchored serde w message i anchor) (hread : w.readLines serde i = .ok lines) :
    Anchored serde w message (i + 1) (anchor <|> findAnchor lines message) := by
  cases h with
  | none hnone =>
      cases hfind : findAnchor lines message with
      | none =>
          refine .none fun j hj lines' hread' => ?_
          rcases Nat.lt_succ_iff_lt_or_eq.mp hj with hj | rfl
          · exact hnone j hj lines' hread'
          · rw [hread] at hread'
            rw [← Except.ok.inj hread', hfind]
      | some k => exact .found i k lines (Nat.lt_succ_self i) hread hfind hnone
  | found j k lines' hj hread' hanchor hbefore =>
      exact .found j k lines' (by omega) hread' hanchor hbefore

structure Completed (serde : SerdeJson) (w : Watch) (message : String) (snap : List ParsedLine)
    (anchor : Option Nat) : Prop where
  /-- In some turn the status was read as idle, with the message anchored in the lines of this
  turn or of an earlier one, and the lines that are returned were read after it. -/
  idle : ∃ i j, w.status i = some "idle" ∧ (∃ lines, w.readLines serde i = .ok lines) ∧
    Anchored serde w message (i + 1) anchor ∧ anchor.isSome = true ∧ i < j ∧
      snap = parseJsonlSlice serde (w.text j)

theorem waitFrom_complete {fuel i : Nat} {anchor anchor' : Option Nat} {snap : List ParsedLine}
    (hanchor : Anchored serde w message i anchor)
    (h : waitFrom serde w message timeout fuel i anchor = some (.complete snap anchor')) :
    Completed serde w message snap anchor' := by
  induction fuel generalizing i anchor with
  | zero => cases h
  | succ fuel ih =>
      rw [waitFrom] at h
      split at h
      case isFalse => cases h
      split at h
      · cases h
      · rename_i lines hread
        have hturn := hanchor.turn hread
        simp only at h
        split at h
        · cases h
        · rename_i status hstatus
          split at h
          · rename_i hdecide
            have hidle : (anchor <|> findAnchor lines message).isSome = true ∧ status = "idle" := by
              unfold decideWait at hdecide
              split at hdecide
              · cases hdecide
              · rename_i hsome
                split at hdecide
                · rename_i heq
                  refine ⟨?_, Option.some.inj heq⟩
                  rw [← Bool.not_eq_false]
                  exact fun hno => hsome (by rw [hno]; rfl)
                · cases hdecide
            obtain ⟨hsome, rfl⟩ := hidle
            split at h
            · rename_i snap' hsettle
              obtain ⟨j, hj, hsnap⟩ := settleSnapshot_eq_ok hsettle
              injection h with h
              injection h with hlines hfound
              subst hlines hfound
              exact ⟨i, j, hstatus, ⟨lines, hread⟩, hturn, hsome, hj, hsnap⟩
            · cases h
          · exact ih hturn h
          · exact ih hturn h

/-- A line that is read before its end and shows the message already shows it also
when it is longer. -/
def MessageLasts (serde : SerdeJson) (w : Watch) (message : String) : Prop :=
  ∀ (i j k : Nat) (p q : ParsedLine), i ≤ j → (parseJsonlSlice serde (w.text i))[k]? = some p →
    (parseJsonlSlice serde (w.text j))[k]? = some q →
    p.userText = some message → q.userText = some message

theorem findAnchor_of_le (hlasts : MessageLasts serde w message) {i j k : Nat} (hij : i ≤ j)
    (h : findAnchor (parseJsonlSlice serde (w.text i)) message = some k) :
    findAnchor (parseJsonlSlice serde (w.text j)) message = some k := by
  obtain ⟨hk, hshows, hfirst⟩ := List.findIdx?_eq_some_iff_getElem.mp h
  obtain ⟨htake, q, hq, -⟩ := (parseJsonlSlice_mono (w.text_mono hij)).getElem?
    (List.getElem?_eq_getElem hk)
  obtain ⟨hk', hqk⟩ := List.getElem?_eq_some_iff.mp hq
  refine List.findIdx?_eq_some_iff_getElem.mpr ⟨hk', ?_, fun m hm => ?_⟩
  · rw [hqk, beq_iff_eq]
    exact hlasts i j k _ q hij (List.getElem?_eq_getElem hk) hq (beq_iff_eq.mp hshows)
  · -- the lines in front of the anchor were complete
    have hmi : m < (parseJsonlSlice serde (w.text i)).length := hm.trans hk
    have hsame : (parseJsonlSlice serde (w.text j))[m]? =
        some (parseJsonlSlice serde (w.text i))[m] := by
      rw [← List.getElem?_take_of_lt hm, ← htake, List.getElem?_take_of_lt hm,
        List.getElem?_eq_getElem hmi]
    obtain ⟨_, heq⟩ := List.getElem?_eq_some_iff.mp hsame
    rw [heq]
    exact hfirst m hm

/-! ### The capture -/

def endTurnTexts (lines : List ParsedLine) (anchor : Option Nat) : List String :=
  (afterAnchor lines anchor).flatMap fun p =>
    if p.value.strField "type" = some "assistant" ∧ stopReason p.value = some "end_turn" then
      (contentBlocks p.value).filterMap nonemptyText
    else []

theorem text_pushBlock (stop : Option String) (acc : Blocks) (b : Json) :
    (pushBlock serde .default stop acc b).text =
      acc.text ++ if stop = some "end_turn" then (nonemptyText b).toList else [] := by
  simp only [pushBlock, reduceCtorEq, false_and, if_false]
  cases nonemptyText b with
  | none => simp
  | some text =>
      by_cases hstop : stop = some "end_turn"
      · simp [hstop]
      · simp [hstop]

theorem text_foldl_pushBlock (stop : Option String) (bs : List Json) (acc : Blocks) :
    (bs.foldl (pushBlock serde .default stop) acc).text =
      acc.text ++ if stop = some "end_turn" then bs.filterMap nonemptyText else [] := by
  induction bs generalizing acc with
  | nil => simp
  | cons b bs ih =>
      rw [List.foldl_cons, ih, text_pushBlock, List.append_assoc]
      congr 1
      split
      · cases hb : nonemptyText b with
        | none => rw [List.filterMap_cons_none hb]; rfl
        | some text => rw [List.filterMap_cons_some hb]; rfl
      · rfl

theorem text_foldl_pushLine (lines : List ParsedLine) (acc : Blocks) :
    (lines.foldl (pushLine serde .default) acc).text = acc.text ++ endTurnTexts lines none := by
  induction lines generalizing acc with
  | nil => rw [List.foldl_nil, endTurnTexts, afterAnchor, List.flatMap_nil, List.append_nil]
  | cons p lines ih =>
      have hcons : endTurnTexts (p :: lines) none =
          (if p.value.strField "type" = some "assistant" ∧ stopReason p.value = some "end_turn" then
            (contentBlocks p.value).filterMap nonemptyText else []) ++ endTurnTexts lines none := rfl
      rw [List.foldl_cons, ih, hcons, ← List.append_assoc]
      congr 1
      unfold pushLine
      by_cases htype : p.value.strField "type" = some "assistant"
      · simp only [htype, true_and, if_true, text_foldl_pushBlock]
      · simp only [htype, false_and, if_false, List.append_nil]

theorem ne_empty_of_mem_endTurnTexts {lines : List ParsedLine} {anchor : Option Nat} {text : String}
    (h : text ∈ endTurnTexts lines anchor) : text ≠ "" := by
  obtain ⟨p, -, hp⟩ := List.mem_flatMap.mp h
  split at hp
  · obtain ⟨b, -, hb⟩ := List.mem_filterMap.mp hp
    have hsome := Option.filter_eq_some_iff.mp hb
    rintro rfl
    exact absurd hsome.2 (by decide)
  · cases hp

theorem intercalate_eq_noTextResponse {texts : List String} :
    "\n\n".intercalate texts = noTextResponse ↔ texts = [noTextResponse] := by
  constructor
  · intro h
    match texts with
    | [] => exact absurd h (by decide)
    | [text] => rw [← h, String.intercalate_singleton]
    | text :: other :: rest =>
        have hmem : '\n' ∈ noTextResponse.toList := by
          rw [← h, String.intercalate_cons_cons, String.toList_append, String.toList_append]
          exact List.mem_append_left _ (List.mem_append_right _ (by decide))
        exact absurd hmem (by decide)
  · rintro rfl
    exact String.intercalate_singleton

theorem intercalate_eq_empty {texts : List String} (h : ∀ text ∈ texts, text ≠ "") :
    "\n\n".intercalate texts = "" ↔ texts = [] := by
  constructor
  · intro hempty
    match texts with
    | [] => rfl
    | [text] =>
        rw [String.intercalate_singleton] at hempty
        exact absurd hempty (h text List.mem_cons_self)
    | text :: other :: rest =>
        have hmem : '\n' ∈ "".toList := by
          rw [← hempty, String.intercalate_cons_cons, String.toList_append, String.toList_append]
          exact List.mem_append_left _ (List.mem_append_right _ (by decide))
        exact absurd hmem (by decide)
  · rintro rfl
    rfl

/-- The capture is what the turn said, and a defect only when it said nothing. -/
def CaptureExact (serde : SerdeJson) (lines : List ParsedLine) (anchor : Option Nat) : Prop :=
  ∀ body, captureOrDefect serde lines anchor .default = .ok body ↔
    endTurnTexts lines anchor ≠ [] ∧ body = "\n\n".intercalate (endTurnTexts lines anchor)

theorem captureOrDefect_default (lines : List ParsedLine) (anchor : Option Nat) :
    captureOrDefect serde lines anchor .default =
      if endTurnTexts lines anchor = [] ∨ endTurnTexts lines anchor = [noTextResponse] then
        .error (captureDefect lines anchor .default)
      else .ok ("\n\n".intercalate (endTurnTexts lines anchor)) := by
  have htexts : ((afterAnchor lines anchor).foldl (pushLine serde .default) {}).text =
      endTurnTexts lines anchor := text_foldl_pushLine (afterAnchor lines anchor) {}
  have hempty := intercalate_eq_empty fun text => @ne_empty_of_mem_endTurnTexts lines anchor text
  have hsentinel := @intercalate_eq_noTextResponse (endTurnTexts lines anchor)
  simp only [captureOrDefect, extractResponse, reduceCtorEq, if_false, htexts]
  by_cases hnil : endTurnTexts lines anchor = []
  · simp [hnil]
  · have hne : ¬ ("\n\n".intercalate (endTurnTexts lines anchor)).isEmpty = true := by
      rw [String.isEmpty_iff, hempty]
      exact hnil
    simp only [hne, hnil, false_or, if_false, Bool.not_eq_true', beq_eq_false_iff_ne, ne_eq,
      hsentinel, ite_not, Bool.false_eq_true]

theorem captureExact_iff {lines : List ParsedLine} {anchor : Option Nat} :
    CaptureExact serde lines anchor ↔ endTurnTexts lines anchor ≠ [noTextResponse] := by
  unfold CaptureExact
  rw [captureOrDefect_default]
  constructor
  · intro h hone
    have hok := (h noTextResponse).mpr ⟨by simp [hone], by rw [hone, String.intercalate_singleton]⟩
    rw [if_pos (.inr hone)] at hok
    cases hok
  · intro hother body
    by_cases hnil : endTurnTexts lines anchor = []
    · simp [hnil]
    · simp only [hnil, hother, or_self, if_false, ne_eq, not_false_eq_true, true_and,
        Except.ok.injEq, eq_comm]

/-- Waiting with capture. A wait that completes has read an idle status with the message anchored;
the lines it returns are those of that turn and what came after, and their first line with the
message is the anchor, where a line that shows the message keeps it. The capture is exact but for
a reply whose only text is the one that stands for no text. -/
theorem waitCapture (serde : SerdeJson) :
    (∀ (w : Watch) (message : String) (timeout : Int) (fuel : Nat) (snap : List ParsedLine)
      (anchor : Option Nat), MessageLasts serde w message →
      runWaitLoop serde w message timeout fuel = some (.complete snap anchor) →
      ∃ i lines k, w.status i = some "idle" ∧ w.readLines serde i = .ok lines ∧
        anchor = some k ∧ Anchored serde w message (i + 1) anchor ∧ Extends lines snap ∧
          findAnchor snap message = some k) ∧
      ∀ (lines : List ParsedLine) (anchor : Option Nat),
        CaptureExact serde lines anchor ↔ endTurnTexts lines anchor ≠ [noTextResponse] := by
  refine ⟨?_, fun lines anchor => captureExact_iff⟩
  intro w message timeout fuel snap anchor hlasts hrun
  have hnone : Anchored serde w message 0 none := .none fun j hj => absurd hj (Nat.not_lt_zero j)
  obtain ⟨i, j, hstatus, ⟨lines, hread⟩, hanchored, hsome, hij, rfl⟩ :=
    (waitFrom_complete hnone hrun).idle
  obtain ⟨k, rfl⟩ := Option.isSome_iff_exists.mp hsome
  refine ⟨i, lines, k, hstatus, hread, rfl, hanchored, ?_, ?_⟩
  · rw [Watch.readLines_eq_ok hread]
    exact parseJsonlSlice_mono (w.text_mono hij.le)
  · cases hanchored with
    | found j' _ lines' hj' hread' hanchor _ =>
        rw [Watch.readLines_eq_ok hread'] at hanchor
        exact findAnchor_of_le hlasts (by omega) hanchor

def userLine (message : String) : Json :=
  .obj [("type", .str "user"), ("message", .obj [("content", .str message)])]

def replyLine (text : String) : Json :=
  .obj [("type", .str "assistant"), ("message", .obj [("stop_reason", .str "end_turn"),
    ("content", .arr [.obj [("type", .str "text"), ("text", .str text)]])])]

/-- A session that is idle from the start, with the message in its transcript. -/
def idleWatch : Watch where
  text := fun _ => (userLine "hi").compact
  grows := fun _ => List.prefix_refl _
  lost := fun _ => none
  status := fun _ => some "idle"
  now := fun _ => 0

/-- The message is found at once, and stays the anchor of what is returned. -/
theorem waitCapture_idle :
    ∃ snap, runWaitLoop (.knowing [userLine "hi"]) idleWatch "hi" 10 1 =
        some (.complete snap (some 0)) ∧ findAnchor snap "hi" = some 0 := by
  have hrun : runWaitLoop (.knowing [userLine "hi"]) idleWatch "hi" 10 1 =
      some (.complete [⟨(userLine "hi").compact, userLine "hi"⟩] (some 0)) := rfl
  have hlasts : MessageLasts (.knowing [userLine "hi"]) idleWatch "hi" := by
    intro i j k p q _ hp hq hshows
    rwa [← Option.some.inj (hp.symm.trans hq)]
  obtain ⟨-, -, k, -, -, hk, -, -, hfind⟩ :=
    (waitCapture (.knowing [userLine "hi"])).1 idleWatch "hi" 10 1 _ _ hlasts hrun
  exact ⟨_, hrun, by rwa [Option.some.inj hk]⟩

/-- A reply of just these words is taken for no reply. -/
theorem waitCapture_sentinel :
    ¬ ∀ (serde : SerdeJson) (lines : List ParsedLine) (anchor : Option Nat),
      CaptureExact serde lines anchor := by
  intro h
  have hexact := h (.knowing []) [⟨(userLine "hi").compact, userLine "hi"⟩,
    ⟨(replyLine noTextResponse).compact, replyLine noTextResponse⟩] (some 0)
  exact captureExact_iff.mp hexact (by decide)

end QuorumDispatch.Transcript
