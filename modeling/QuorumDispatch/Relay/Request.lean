import Mathlib.Algebra.Order.Ring.Int
import Mathlib.Logic.Relation
import QuorumDispatch.Kill.Process
import QuorumDispatch.Lib.Lossy
import QuorumDispatch.Provider.Attribution

/-!
How a relay reads a request off a socket. A read returns what has come, at least a byte while
there is one to come; so the same stream can come in any pieces.

The reader has come to a state that depends on the bytes that it has received, and not on the
pieces. What it answers in the end depends on the stream only.
-/

namespace QuorumDispatch.Relay

open Lib
open Kill (splitWhitespace)
open Provider (splitOnce)

def maxRequestBytes : Nat := 1024 * 1024

def headEnd : Bytes := [13, 10, 13, 10]

def findSubslice (needle : Bytes) : Bytes → Option Nat
  | [] => none
  | b :: rest =>
      if needle ≠ [] ∧ needle <+: b :: rest then some 0 else (findSubslice needle rest).map (· + 1)

/-! ### The head of a request -/

/-- `split("\r\n")`. -/
def splitCrlf : List Char → List (List Char)
  | [] => [[]]
  | '\r' :: '\n' :: rest => [] :: splitCrlf rest
  | c :: rest =>
      match splitCrlf rest with
      | [] => [[c]]
      | line :: lines => (c :: line) :: lines

/-- `str::parse::<usize>`. -/
def parseUsize (cs : List Char) : Option Nat :=
  let digits := match cs with
    | '+' :: rest => rest
    | _ => cs
  if digits ≠ [] ∧ digits.all Char.isDigit ∧ Nat.ofDigitChars 10 digits 0 < 2 ^ 64 then
    some (Nat.ofDigitChars 10 digits 0)
  else none

/-- The value of a header line that has the name; lines without a colon are skipped. -/
def contentLengthValue? (line : List Char) : Option (List Char) :=
  match splitOnce [':'] line with
  | some (name, value) =>
      if (trim name).map Char.toLower = "content-length".toList then some (trim value) else none
  | none => none

/-- The last length that the lines give, if every one of them is a number that is not too large. -/
def contentLengthFrom (contentLength : Nat) : List (List Char) → Option Nat
  | [] => some contentLength
  | line :: lines =>
      match contentLengthValue? line with
      | none => contentLengthFrom contentLength lines
      | some value =>
          match parseUsize value with
          | none => none
          | some len => if maxRequestBytes < len then none else contentLengthFrom len lines

structure Head where
  method : List Char
  path : List Char
  contentLength : Nat
  bounded : contentLength ≤ maxRequestBytes
deriving DecidableEq, Repr

theorem contentLengthFrom_le {start n : Nat} (hstart : start ≤ maxRequestBytes)
    {lines : List (List Char)} (h : contentLengthFrom start lines = some n) :
    n ≤ maxRequestBytes := by
  induction lines generalizing start with
  | nil => exact Option.some.inj h ▸ hstart
  | cons line lines ih =>
      rw [contentLengthFrom] at h
      split at h
      next => exact ih hstart h
      next =>
        split at h
        next => cases h
        next len _ =>
          split at h
          next => cases h
          next hle => exact ih (Nat.le_of_not_lt hle) h

def readHead (header : Bytes) : Option Head :=
  match splitCrlf (fromUtf8Lossy header) with
  | [] => none
  | requestLine :: lines =>
      match splitWhitespace requestLine with
      | method :: path :: _ =>
          match h : contentLengthFrom 0 lines with
          | some contentLength =>
              some { method, path, contentLength
                     bounded := contentLengthFrom_le (Nat.zero_le _) h }
          | none => none
      | _ => none

/-! ### The reader -/

/-- The bytes that are still to come, and what each read is answered: that it fails, or how many
bytes beyond the first have come by then. -/
structure Socket where
  pending : Bytes
  answers : Nat → Option Nat
  reads : Nat := 0

/-- At most `want` bytes, and none at the end of the stream. -/
def timedRead (s : Socket) (want : Nat) : Option (Bytes × Socket) :=
  (s.answers s.reads).map fun more =>
    let n := min (more + 1) want
    (s.pending.take n, { s with pending := s.pending.drop n, reads := s.reads + 1 })

structure ParsedRequest where
  method : List Char
  path : List Char
  body : Bytes
deriving DecidableEq, Repr

/-- Where the reader is: before the end of the headers, in the body, or at its answer. -/
inductive Phase where
  | headers (buf : Bytes)
  | body (head : Head) (bytes : Bytes)
  | done (request : Option ParsedRequest)
deriving DecidableEq, Repr

structure Reader where
  socket : Socket
  phase : Phase

namespace Reader

def receive (r : Reader) (want : Nat) (next : Bytes → Phase) : Reader :=
  match timedRead r.socket want with
  | none => { r with phase := .done none }
  | some ([], socket) => { socket, phase := .done none }
  | some (b :: got, socket) => { socket, phase := next (b :: got) }

/-- A round of one of the two loops, or the way from the one to the other. -/
def step (r : Reader) : Option Reader :=
  match r.phase with
  | .headers buf =>
      match findSubslice headEnd buf with
      | some pos =>
          match readHead (buf.take pos) with
          | some head => some { r with phase := .body head (buf.drop (pos + 4)) }
          | none => some { r with phase := .done none }
      | none =>
          if maxRequestBytes ≤ buf.length then some { r with phase := .done none }
          else
            some (r.receive (min (maxRequestBytes - buf.length) 1024) fun got =>
              .headers (buf ++ got))
  | .body head bytes =>
      if bytes.length < head.contentLength then
        some (r.receive (min (head.contentLength - bytes.length) 4096) fun got =>
          .body head (bytes ++ got))
      else
        some { r with
          phase := .done (some
            { method := head.method, path := head.path, body := bytes.take head.contentLength }) }
  | .done _ => none

def left (r : Reader) : Nat :=
  match r.phase with
  | .headers buf => maxRequestBytes + 2 + (maxRequestBytes - buf.length)
  | .body head bytes => head.contentLength - bytes.length + 1
  | .done _ => 0

theorem left_receive {r : Reader} {want n : Nat} {next : Bytes → Phase} (hpos : 0 < n)
    (hnext : ∀ b got socket, (Reader.mk socket (next (b :: got))).left < n) :
    (r.receive want next).left < n := by
  unfold receive
  split
  · exact hpos
  · exact hpos
  · exact hnext ..

theorem left_lt {r r' : Reader} (h : r.step = some r') : r'.left < r.left := by
  obtain ⟨socket, phase⟩ := r
  unfold step at h
  cases phase with
  | headers buf =>
      have hbound : ∀ head : Head, head.contentLength ≤ maxRequestBytes := fun head => head.bounded
      dsimp only at h
      split at h
      next pos _ =>
        split at h <;> cases h
        · simp only [left]
          have := hbound ‹_›
          omega
        · simp only [left]
          omega
      next =>
        split at h <;> cases h
        · simp only [left]
          omega
        next hroom =>
          refine left_receive ?_ fun b got socket => ?_
          · simp only [left]
            omega
          · simp only [left, List.length_append, List.length_cons]
            omega
  | body head bytes =>
      dsimp only at h
      split at h <;> cases h
      next hshort =>
        refine left_receive ?_ fun b got socket => ?_
        · simp only [left]
          omega
        · simp only [left, List.length_append, List.length_cons]
          omega
      next =>
        simp only [left]
        omega
  | done request => cases h

def finish (r : Reader) : Option ParsedRequest :=
  match h : r.step with
  | some r' => r'.finish
  | none =>
      match r.phase with
      | .done request => request
      | _ => none
termination_by r.left
decreasing_by exact left_lt h

def start (socket : Socket) : Reader := { socket, phase := .headers [] }

def Reaches : Reader → Reader → Prop := Relation.ReflTransGen fun r r' => r.step = some r'

end Reader

def readRequest (socket : Socket) : Option ParsedRequest := (Reader.start socket).finish

end QuorumDispatch.Relay
