import QuorumDispatch.Screen.HandOff
import QuorumDispatch.Screen.LogicalHistory

/-!
Attaching a client to a session. The reader thread processes chunks of output under the
lock of the screen. The attach takes the lock twice: for a snapshot of the history with a
full frame, and, when both are written, to drain what was captured meanwhile. Then the
relay takes what is captured and renders.
-/

namespace QuorumDispatch.Server

open Lib Screen

/-! ### Messages -/

/-- What a client is sent. The rows of the scrollback that a message holds are kept beside
what is made of them. -/
inductive ServerMsg where
  | history (rows : List Line) (lines : List (List Sequence))
  | historyLogical (rows : List Line) (chunks : List LogicalHistoryChunk)
  | screenUpdate (injected : List Line) (passthrough : List Bytes) (frame : List Sequence)
deriving DecidableEq

def ServerMsg.replayed : ServerMsg → List Line
  | history rows _ => rows
  | historyLogical rows _ => rows
  | screenUpdate .. => []

def ServerMsg.injected : ServerMsg → List Line
  | screenUpdate injected _ _ => injected
  | _ => []

def bincodeLineOverhead : Nat := 16

def maxFrameSize : Nat := 16 * 1024 * 1024

def historyFrames (lineSize : Line → Nat) : List Line → Nat → List Line → List (List Line)
  | chunk, _, [] => if chunk.isEmpty then [] else [chunk]
  | chunk, chunkSize, line :: lines =>
      if chunkSize + lineSize line > maxFrameSize / 2 ∧ chunk ≠ [] then
        chunk :: historyFrames lineSize [line] (lineSize line) lines
      else historyFrames lineSize (chunk ++ [line]) (chunkSize + lineSize line) lines

theorem flatten_historyFrames (lineSize : Line → Nat) (chunk : List Line) (chunkSize : Nat)
    (lines : List Line) : (historyFrames lineSize chunk chunkSize lines).flatten = chunk ++ lines := by
  induction lines generalizing chunk chunkSize with
  | nil =>
      rw [historyFrames]
      cases chunk <;> simp
  | cons line lines ih =>
      rw [historyFrames]
      split_ifs
      · rw [List.flatten_cons, ih]
        rfl
      · rw [ih, List.append_assoc]
        rfl

def historyMsgs (rows : List Line) (styles : StyleTable) : List ServerMsg :=
  let lineSize := fun row => (Sequence.encode (renderLine row styles)).length + bincodeLineOverhead
  (historyFrames lineSize [] 0 rows).map fun rows =>
    .history rows (rows.map fun row => renderLine row styles)

/-! ### Sessions -/

inductive Phase where
  | detached
  | connected
  | replaying
  | relaying
deriving DecidableEq, Repr

/-- A session with its client. The last two fields are history variables: the screen when
the client connected, and when the snapshot was taken. -/
structure Session where
  screen : Screen
  hasClient : Bool := false
  phase : Phase := .detached
  logicalHistory : Bool := false
  cache : RenderCache := {}
  sent : List ServerMsg := []
  atConnect : Screen := screen
  atSnapshot : Screen := screen

inductive Step where
  | output (chunk : List Callback)
  | resize (cols rows : UInt16)
  | connect (logicalHistory : Bool)
  | snapshot
  | drain
  | relay
  | refresh
  | detach
deriving DecidableEq

namespace Session

section Steps

variable (charWidth : Char → Nat) (hashRow : Line → UInt64)

/-- `take_responses`. -/
def takeResponses (s : Screen) : Screen := { s with terminal.state.pendingResponses := [] }

def discard (s : Screen) : Screen := s.takePendingScrollback.2.takePassthrough.2

def feed? (c : Session) (callback : Callback) : Option Session := do
  let screen ← c.screen.step? charWidth (.callback callback)
  some { c with screen }

/-- The turn of `persistent_reader_loop` that holds the lock. -/
def output? (c : Session) (chunk : List Callback) : Option Session := do
  let c ← chunk.foldlM (feed? charWidth) c
  let screen := takeResponses c.screen
  some { c with screen := if c.hasClient then screen else discard screen }

/-- The rows of the scrollback that the attach replays. On the alternate screen there
are none. -/
def replayedRows (logicalHistory : Bool) (s : Screen) : List Line :=
  let t := if logicalHistory then s.logical else s.terminal
  if t.state.inAltScreen then [] else t.history

def initialHistory (logicalHistory : Bool) (s : Screen) : List ServerMsg :=
  let rows := replayedRows logicalHistory s
  if logicalHistory then
    let chunks := s.logicalEmission .attachReplay
    if chunks.isEmpty then [] else [.historyLogical rows chunks]
  else historyMsgs rows s.terminal.grid.styleTable

/-- The first critical section of `send_initial_state`, with what it writes. History lines
that are still on the client's screen are scrolled off before it is cleared. -/
def snapshot (c : Session) : Session :=
  let history := initialHistory c.logicalHistory c.screen
  let (notifications, screen) := c.screen.takeQueuedNotifications
  let rows := screen.terminal.grid.rows
  let flush := if history.isEmpty then []
    else Sequence.moveTo rows 1 :: List.replicate (rows - 1) (Sequence.control 0x0A)
  let (frame, cache) := screen.render hashRow true {}
  { c with
    screen, cache
    phase := .replaying
    atSnapshot := c.screen
    sent := c.sent ++ history ++ [.screenUpdate [] notifications (flush ++ frame)] }

/-- `take_and_render` and what the relay sends of it. An update without bytes is not sent. -/
def relay (c : Session) : Session :=
  let ((frame, passthrough), screen, cache) := c.screen.takeAndRender hashRow c.cache
  let update := if frame.isEmpty ∧ passthrough.flatten.isEmpty then []
    else [ServerMsg.screenUpdate c.screen.terminal.pendingRows passthrough frame]
  { c with screen, cache, sent := c.sent ++ update }

def refresh (c : Session) : Session :=
  let (frame, cache) := c.screen.render hashRow true c.cache
  { c with cache, sent := c.sent ++ [.screenUpdate [] [] frame] }

/-- A step that the phase does not allow is none of the session's. The session is resized
while no client is attached. -/
def step? (c : Session) : Step → Option Session
  | .output chunk => c.output? charWidth chunk
  | .resize cols rows =>
      if c.phase = .detached then do
        let screen ← c.screen.step? charWidth (.resize cols rows)
        some { c with screen }
      else some c
  | .connect logicalHistory =>
      if c.phase = .detached then
        some { screen := c.screen, hasClient := true, phase := .connected, logicalHistory }
      else some c
  | .snapshot => some (if c.phase = .connected then c.snapshot hashRow else c)
  | .drain =>
      some (if c.phase = .replaying then { c with screen := discard c.screen, phase := .relaying }
        else c)
  | .relay => some (if c.phase = .relaying then c.relay hashRow else c)
  | .refresh => some (if c.phase = .relaying then c.refresh hashRow else c)
  | .detach => some { c with hasClient := false, phase := .detached }

def run? (c : Session) (steps : List Step) : Option Session :=
  steps.foldlM (step? charWidth hashRow) c

end Steps

/-! ### Rows that leave -/

def source (c : Session) (s : Screen) : Terminal := if c.logicalHistory then s.logical else s.terminal

/-- The rows that left the main screen between the connect and the snapshot. -/
def leftBefore (c : Session) : List Line :=
  (c.source c.atConnect).leftBetween (c.source c.atSnapshot)

def leftAfter (c : Session) : List Line := c.atSnapshot.terminal.leftBetween c.screen.terminal

/-- Once the client is attached, the rows that left the screen before the snapshot are the
end of the replayed history, behind rows that had left before the client connected. The
rows that left after it are those that were injected and, next, those that the relay takes.
The logical history also holds the rows of the screen, of which none may then leave. -/
def ExactlyOnce (c : Session) : Prop :=
  c.phase = .relaying →
    (∃ older, c.sent.flatMap ServerMsg.replayed = older ++ c.leftBefore ∧
      older <:+ (c.source c.atConnect).history) ∧
    c.sent.flatMap ServerMsg.injected ++ c.screen.terminal.pendingRows = c.leftAfter ∧
    (c.logicalHistory = true → c.atSnapshot.logical.state.inAltScreen = false → c.leftAfter = [])

end Session

end QuorumDispatch.Server
