import QuorumDispatch.DeliveryEvents.RecoveryEmit
import QuorumDispatch.Pty.Verify
import QuorumDispatch.Timefmt.Lenient
import QuorumDispatch.Transcript.Jsonl

/-!
A send that nothing has closed is looked for in the transcript. The window is what was written
behind the recorded offset, or, where none was recorded, what is not older than the send; in it
the first user record with the content is the anchor, and a shorter one that begins with chunks of
the content is a truncation.
-/

namespace QuorumDispatch.Transcript

open Lib
open DeliveryEvents (EventRecord RecoveryVerdict)
open Pty (chunkText chunkBytes)
open Timefmt (Lenient.isoToEpochMs)

structure RecoveryDeps where
  readTranscript : String → Option (List Char)
  resolveTranscript : Option String → Option String → Option String

/-- The libraries of the read, and what is left of a timestamp whose arithmetic overflows. -/
structure RecoveryLib where
  serde : SerdeJson
  sha256Hex : Bytes → String
  overflowed : List Char → Option Int

/-! ### The window -/

inductive Window where
  | offset (transcript : String) (text : List Char) (offset : Nat)
  | timeWindow (transcript : String) (text : List Char)

def isReceiptClosedSendPath (sendPath : String) : Bool := sendPath == "relay"

def buildWindow (deps : RecoveryDeps) (si : EventRecord) : Option Window :=
  match (Json.obj si.obj).strField "transcript", (Json.obj si.obj).u64Field "transcript_offset" with
  | some t, some o => do
      let text ← deps.readTranscript t
      some (.offset t text o)
  | _, _ => do
      let t ← deps.resolveTranscript si.session si.name
      let text ← deps.readTranscript t
      some (.timeWindow t text)

structure Candidate where
  text : String
  startOffset : Nat
  lineIndex : Nat
deriving DecidableEq, Repr

/-- `while !text.is_char_boundary(start) { start += 1 }`, at most `left` times. -/
def toCharBoundary (bytes : Bytes) : Nat → Nat → Nat
  | 0, start => start
  | left + 1, start =>
      if charBoundary bytes start then start else toCharBoundary bytes left (start + 1)

/-- `&text[start..]`, which must not cut a character. -/
def sliceFrom (text : List Char) (start : Nat) : Option (List Char) :=
  let bytes := encodeUtf8 text
  if start ≤ bytes.length ∧ charBoundary bytes start = true then decodeUtf8 (bytes.drop start)
  else none

section Read

variable (lib : RecoveryLib)

/-- `iso_to_epoch_ms`. -/
def timestampMs (s : List Char) : Option Int :=
  (Lenient.isoToEpochMs s).getD (lib.overflowed s)

/-- The text of a line that counts: a user record, and not one that is older than the floor. -/
def candidateText (tsFloor : Option Int) (p : ParsedLine) : Option String := do
  let userText ← p.userText
  match tsFloor with
  | none => some userText
  | some floor =>
      match (p.value.strField "timestamp").bind fun ts => timestampMs lib ts.toList with
      | some t => if t < floor then none else some userText
      | none => some userText

def walkLines (tsFloor : Option Int) :
    List (List Char) → List ParsedLine → Nat → Nat → List Candidate
  | [], _, _, _ => []
  | rawLine :: rest, parsed, cursor, lineIndex =>
      let next := cursor + (encodeUtf8 rawLine).length
      if isBlank rawLine then walkLines tsFloor rest parsed next lineIndex
      else
        match parsed with
        | [] => []
        | p :: parsed =>
            match candidateText lib tsFloor p with
            | some text =>
                { text, startOffset := cursor, lineIndex } ::
                  walkLines tsFloor rest parsed next (lineIndex + 1)
            | none => walkLines tsFloor rest parsed next (lineIndex + 1)

def windowStart (text : List Char) (minOffset : Option Nat) : Nat :=
  match minOffset with
  | some o =>
      let bytes := encodeUtf8 text
      let o := min o bytes.length
      toCharBoundary bytes (bytes.length - o) o
  | none => 0

def extractCandidates (text : List Char) (minOffset : Option Nat) (tsFloor : Option Int) :
    Option (List Candidate) := do
  let start := windowStart text minOffset
  let slice ← sliceFrom text start
  some (walkLines lib tsFloor (splitInclusive '\n' slice) (parseJsonlSlice lib.serde slice) start 0)

/-- The time from which on a line counts where there is no offset. -/
def skewFloor (si : EventRecord) : Int :=
  match si.ts.bind fun ts => timestampMs lib ts.toList with
  | some t => t - 5000
  | none => -2 ^ 63

def windowCandidates (window : Window) (si : EventRecord) :
    Option (String × String × List Candidate) :=
  match window with
  | .offset transcript text offset => do
      let candidates ← extractCandidates lib text (some offset) none
      some (transcript, "offset", candidates)
  | .timeWindow transcript text => do
      let candidates ← extractCandidates lib text none (some (skewFloor lib si))
      some (transcript, "time-window", candidates)

/-! ### The search -/

def matchedFrom : List (List Char) → List String → Nat
  | chunk :: chunks, expected :: chunkShas =>
      if (encodeUtf8 chunk).length < chunkBytes then 0
      else if lib.sha256Hex (encodeUtf8 chunk) = expected then 1 + matchedFrom chunks chunkShas
      else 0
  | _, _ => 0

def matchedFullChunkPrefix (text : String) (chunkShas : List String) : Nat :=
  matchedFrom lib (chunkText text.toList chunkBytes) chunkShas

def textLen (text : String) : Nat := (encodeUtf8 text.toList).length

/-- The shorter candidate with the most matching chunks, the first of several. -/
def bestTruncated (contentLen : Nat) (chunkShas : List String) (candidates : List Candidate) :
    Option (Candidate × Nat) :=
  candidates.foldl (fun best c =>
    if contentLen ≤ textLen c.text then best
    else
      let matched := matchedFullChunkPrefix lib c.text chunkShas
      if 1 ≤ matched then
        match best with
        | some (b, bm) => if matched ≤ bm then some (b, bm) else some (c, matched)
        | none => some (c, matched)
      else best) none

def chunkShasOf (si : EventRecord) : List String :=
  match (Json.obj si.obj).get "chunk_sha256s" with
  | some (.arr items) => items.filterMap Json.asStr
  | _ => []

def contentLenOf (si : EventRecord) : Nat := ((Json.obj si.obj).u64Field "content_len").getD 0

def searchVerdict (si : EventRecord) (contentSha transcript attribution : String)
    (candidates : List Candidate) : RecoveryVerdict :=
  if candidates.isEmpty then .emptyWindow
  else
    match candidates.find? fun c => lib.sha256Hex (encodeUtf8 c.text.toList) == contentSha with
    | some c =>
        .anchored ⟨transcript, .ofNat c.startOffset, .ofNat c.lineIndex⟩ attribution
    | none =>
        match bestTruncated lib (contentLenOf si) (chunkShasOf si) candidates with
        | some (c, _) =>
            .truncated (.ofNat (contentLenOf si)) (.ofNat (textLen c.text))
              (lib.sha256Hex (encodeUtf8 c.text.toList)) attribution
        | none => .abandoned attribution

/-- The search of a record whose carrier has no receipt; none when the scan panics. -/
def searchRead (deps : RecoveryDeps) (si : EventRecord) : Option RecoveryVerdict :=
  match (Json.obj si.obj).strField "content_sha256" with
  | none => some .unattributable
  | some contentSha =>
      match buildWindow deps si with
      | none => some .sourceUnavailable
      | some window => do
          let (transcript, attribution, candidates) ← windowCandidates lib window si
          some (searchVerdict lib si contentSha transcript attribution candidates)

def recoveryRead (deps : RecoveryDeps) (si : EventRecord) : Option RecoveryVerdict :=
  match (Json.obj si.obj).strField "send_path" with
  | some sendPath =>
      if isReceiptClosedSendPath sendPath then some (.receiptClosed sendPath)
      else searchRead lib deps si
  | none => searchRead lib deps si

end Read

end QuorumDispatch.Transcript
