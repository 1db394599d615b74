import QuorumDispatch.Screen.Emulator

/-!
The renderer: the bytes that bring a client's terminal to what the grid shows, with a
cache for each client of what it was sent before.

The bytes are written as a list of sequences. `Sequence.bytes` is what goes over the wire
and `Sequence.callback` what a parser makes of it.
-/

namespace QuorumDispatch.Screen

open Lib

set_option linter.dupNamespace false

/-! ### Sequences -/

/-- What the renderer writes at a time. A control sequence has its private marker, its
parameters with their subparameters, its intermediate bytes and its final byte. -/
inductive Sequence where
  | char (c : Char)
  | control (byte : UInt8)
  | csi (marker : Bytes) (params : List (List Nat)) (intermediates : Bytes) (final : Char)
  | esc (intermediates : Bytes) (byte : UInt8)
  | osc (params : List Bytes)
deriving DecidableEq, Repr

namespace Sequence

def joinParams (separator : UInt8) (params : List Bytes) : Bytes :=
  List.flatten (params.intersperse [separator])

def paramBytes (params : List (List Nat)) : Bytes :=
  joinParams 0x3B (params.map fun p => joinParams 0x3A (p.map writeU16))

def bytes : Sequence → Bytes
  | char c => String.utf8EncodeChar c
  | control byte => [byte]
  | csi marker params intermediates final =>
      ascii "\x1b[" ++ marker ++ paramBytes params ++ intermediates ++ String.utf8EncodeChar final
  | esc intermediates byte => [0x1B] ++ intermediates ++ [byte]
  | osc params => ascii "\x1b]" ++ joinParams 0x3B params ++ [0x07]

def callback : Sequence → Callback
  | char c => .print c
  | control byte => .execute byte
  | csi marker params intermediates final =>
      .csiDispatch (if params.isEmpty then [[0]] else params) (marker ++ intermediates) final
  | esc intermediates byte => .escDispatch intermediates byte
  | osc params => .oscDispatch params true

def encode (seqs : List Sequence) : Bytes := seqs.flatMap bytes

/-! The sequences of the renderer. -/

def plain (params : List Nat) (final : Char) : Sequence := csi [] (params.map fun n => [n]) [] final

/-- `\x1b[<row>;<col>H` -/
def moveTo (row col : Nat) : Sequence := plain [row, col] 'H'

/-- `write_sgr_with_reset_to` -/
def sgr (s : Style) : Sequence := csi [] s.sgrWithReset [] 'm'

/-- `\x1b[0m` -/
def sgrReset : Sequence := plain [0] 'm'

/-- `\x1b[K` -/
def eraseToEnd : Sequence := plain [] 'K'

/-- `emit_dec_mode` -/
def decMode (code : Nat) (enabled : Bool) : Sequence :=
  csi (ascii "?") [[code]] [] (if enabled then 'h' else 'l')

/-- `emit_charset` -/
def charset (slot : UInt8) (set : Charset) : Sequence :=
  esc [slot] (match set with | .ascii => 0x42 | .lineDrawing => 0x30)

def cursorShape (shape : CursorShape) : Sequence := csi [] [[shape.toParam]] (ascii " ") 'q'

def keypad (app : Bool) : Sequence := esc [] (if app then 0x3D else 0x3E)

def activeCharset : ActiveCharset → Sequence
  | .g0 => control 0x0F
  | .g1 => control 0x0E

def title (text : List Char) : Sequence :=
  osc [ascii "2", (encodeUtf8 text).filter fun b => 0x20 ≤ b && b != 0x7F]

end Sequence

open Sequence

/-! ### Rows -/

def Cell.hasContent (cell : Cell) : Bool :=
  (cell.c != ' ' && cell.c != '\x00') || cell.styleId != 0

/-- The index of the last cell with content or a style, of which a line is written up
to here. -/
def lastContentPosition (cells : List Cell) : Option Nat :=
  (cells.reverse.findIdx? Cell.hasContent).map fun i => cells.length - 1 - i

def writeLen (line : Line) : Nat :=
  match lastContentPosition line.cells with
  | some pos => pos + 1
  | none => 0

/-- The cells from column `x` on, where the style `sid` is in effect. The second half of
a wide character is not written. -/
def drawCells (styles : StyleTable) (line : Line) : Nat → Nat → List Cell → List Sequence
  | _, _, [] => []
  | x, sid, cell :: rest =>
      if cell.width = 0 then drawCells styles line (x + 1) sid rest
      else
        (if cell.styleId ≠ sid then [sgr (styles.get cell.styleId)] else []) ++
          char cell.c :: (line.combiningAt x).map char ++
          drawCells styles line (x + 1) cell.styleId rest

def styleBehind (sid : Nat) (cells : List Cell) : Nat :=
  cells.foldl (fun sid cell => if cell.width = 0 then sid else cell.styleId) sid

/-- `render_line`: a line of history. -/
def renderLine (line : Line) (styles : StyleTable) : List Sequence :=
  let cells := line.cells.take (writeLen line)
  drawCells styles line 0 0 cells ++ if styleBehind 0 cells ≠ 0 then [sgrReset] else []

def drawRow (styles : StyleTable) (y : Nat) (line : Line) : List Sequence :=
  moveTo (y + 1) 1 :: drawCells styles line 0 0 (line.cells.take (writeLen line)) ++
    [sgrReset, eraseToEnd]

/-! ### Modes -/

def emitMouseEncoding : MouseEncoding → List Sequence
  | .sgr => [decMode 1005 false, decMode 1006 true]
  | .utf8 => [decMode 1006 false, decMode 1005 true]
  | .x10 => [decMode 1006 false, decMode 1005 false]

def emitMode (m : TerminalModes) : List Sequence :=
  [cursorShape m.cursorShape, decMode 1 m.cursorKeyMode, decMode 6 m.originMode,
    decMode 7 m.autowrapMode, decMode 2004 m.bracketedPaste, decMode 1000 m.mouseModes.click,
    decMode 1002 m.mouseModes.button, decMode 1003 m.mouseModes.any] ++
  emitMouseEncoding m.mouseEncoding ++
  [decMode 1004 m.focusReporting, keypad m.keypadAppMode, charset 0x28 m.g0Charset,
    charset 0x29 m.g1Charset, activeCharset m.activeCharset]

def emitModeDelta (m prev : TerminalModes) : List Sequence :=
  (if m.cursorShape ≠ prev.cursorShape then [cursorShape m.cursorShape] else []) ++
  (if m.cursorKeyMode ≠ prev.cursorKeyMode then [decMode 1 m.cursorKeyMode] else []) ++
  (if m.originMode ≠ prev.originMode then [decMode 6 m.originMode] else []) ++
  (if m.autowrapMode ≠ prev.autowrapMode then [decMode 7 m.autowrapMode] else []) ++
  (if m.bracketedPaste ≠ prev.bracketedPaste then [decMode 2004 m.bracketedPaste] else []) ++
  (if m.mouseModes.click ≠ prev.mouseModes.click then [decMode 1000 m.mouseModes.click] else []) ++
  (if m.mouseModes.button ≠ prev.mouseModes.button then [decMode 1002 m.mouseModes.button]
    else []) ++
  (if m.mouseModes.any ≠ prev.mouseModes.any then [decMode 1003 m.mouseModes.any] else []) ++
  (if m.mouseEncoding ≠ prev.mouseEncoding then emitMouseEncoding m.mouseEncoding else []) ++
  (if m.focusReporting ≠ prev.focusReporting then [decMode 1004 m.focusReporting] else []) ++
  (if m.keypadAppMode ≠ prev.keypadAppMode then [keypad m.keypadAppMode] else []) ++
  (if m.g0Charset ≠ prev.g0Charset then [charset 0x28 m.g0Charset] else []) ++
  (if m.g1Charset ≠ prev.g1Charset then [charset 0x29 m.g1Charset] else []) ++
  (if m.activeCharset ≠ prev.activeCharset then [activeCharset m.activeCharset] else [])

/-! ### The cache -/

/-- What this client was sent. `lastAlt` is `none` until the first frame. -/
structure RenderCache where
  rowHashes : List UInt64 := []
  lastModes : Option TerminalModes := none
  lastScrollRegion : Option (Nat × Nat) := none
  lastTitle : List Char := []
  lastCursor : Option (Nat × Nat) := none
  lastCursorVisible : Option Bool := none
  lastAlt : Option Bool := none
deriving DecidableEq, Repr

namespace RenderCache

def invalidate (cache : RenderCache) : RenderCache where
  lastAlt := cache.lastAlt

/-- One hash for each visible row; a new one is `u64::MAX`. -/
def fitRows (cache : RenderCache) (rows : Nat) : RenderCache :=
  { cache with rowHashes := cache.rowHashes.take rows ++
      List.replicate (rows - cache.rowHashes.length) (UInt64.ofNat (2 ^ 64 - 1)) }

end RenderCache

/-! ### Frames -/

/-- `render_scrollback` for one screenful of lines. -/
def injectChunk (rows : Nat) (chunk : List (List Sequence)) : List Sequence :=
  (chunk.zipIdx.flatMap fun (line, i) =>
    [moveTo (i + 1) 1, sgrReset] ++ line ++ [eraseToEnd]) ++
  ((List.range' chunk.length (rows - chunk.length)).flatMap fun i =>
    [moveTo (i + 1) 1, plain [2] 'K']) ++
  moveTo rows 1 :: List.replicate chunk.length (control 0x0A)

/-- `chunks(rows)`. -/
def chunksOf {α : Type} (n : Nat) (hn : 0 < n) (xs : List α) : List (List α) :=
  match xs with
  | [] => []
  | x :: xs => ((x :: xs).take n) :: chunksOf n hn ((x :: xs).drop n)
termination_by xs.length

def renderScrollback (f : Frame) (scrollback : List (List Sequence)) : List Sequence :=
  [decMode 25 false, plain [] 'r'] ++
    (chunksOf f.rows f.size.rows_pos scrollback).flatMap (injectChunk f.rows)

section Frame

variable (hashRow : Line → UInt64)

/-- The rows whose hash changed, or all of them, with their new hashes. -/
def drawRows (styles : StyleTable) (full : Bool) :
    Nat → List UInt64 → List Line → List Sequence × List UInt64 × Bool
  | y, hash :: hashes, line :: lines =>
      let (out, hashes, drew) := drawRows styles full (y + 1) hashes lines
      if full = false ∧ hash = hashRow line then (out, hash :: hashes, drew)
      else (drawRow styles y line ++ out, hashRow line :: hashes, true)
  | _, hashes, _ => ([], hashes, false)

/-- `render_modes_title_cursor`: the region homes the cursor and so may the modes, so
that the cursor comes last. -/
def renderModesTitleCursor (f : Frame) (text : List Char) (full drewRow : Bool)
    (cache : RenderCache) : List Sequence × RenderCache :=
  let region := (f.scrollTop, f.scrollBottom)
  let cursor := (f.cursorX, f.cursorY)
  let regionOut :=
    if full ∨ cache.lastScrollRegion ≠ some region then
      [plain [f.scrollTop + 1, f.scrollBottom + 1] 'r'] else []
  let modesOut :=
    match cache.lastModes with
    | some prev => if full then emitMode f.modes else emitModeDelta f.modes prev
    | none => emitMode f.modes
  let cursorOut :=
    if full ∨ drewRow ∨ cache.lastCursor ≠ some cursor then
      [moveTo (f.cursorY + 1) (f.cursorX + 1)] else []
  let titleOut := if full ∨ text ≠ cache.lastTitle then [Sequence.title text] else []
  (regionOut ++ modesOut ++ cursorOut ++ titleOut,
    { cache with
      lastScrollRegion := some region
      lastModes := some f.modes
      lastCursor := some cursor
      lastTitle := text })

/-- The frame behind the switch of screens and the injected lines. A frame that would
only hide the cursor and show it again is dropped. -/
def renderBody (f : Frame) (visible : List Line) (text : List Char) (full : Bool)
    (cache : RenderCache) : List Sequence × RenderCache :=
  let start := if full then [sgrReset, plain [] 'H'] else []
  let cache := (if full then cache.invalidate else cache).fitRows visible.length
  let (rowsOut, rowHashes, drewRow) := drawRows hashRow f.styleTable full 0 cache.rowHashes visible
  let (tail, cache) := renderModesTitleCursor f text full drewRow { cache with rowHashes }
  if (start ++ rowsOut ++ tail).isEmpty ∧ cache.lastCursorVisible = some f.cursorVisible then
    ([], cache)
  else
    ([decMode 2026 true, decMode 25 false] ++ start ++ rowsOut ++ tail ++
        (if f.cursorVisible then [decMode 25 true] else []) ++ [decMode 2026 false],
      { cache with lastCursorVisible := some f.cursorVisible })

/-- `render_screen_impl`. The client leaves the alternate screen before lines of the main
one are injected and enters it behind them. -/
def renderScreenImpl (f : Frame) (visible : List Line) (text : List Char)
    (scrollback : List (List Sequence)) (full alt : Bool) (cache : RenderCache) :
    List Sequence × RenderCache :=
  let transition := cache.lastAlt.any (· != alt)
  let leave := if transition ∧ alt = false then [decMode 1049 false] else []
  let inject := if scrollback.isEmpty then [] else renderScrollback f scrollback
  let cache := if scrollback.isEmpty then cache else cache.invalidate
  let enter := if alt ∧ (transition ∨ cache.lastAlt.isNone) then [decMode 1049 true] else []
  let cache := if transition then cache.invalidate else cache
  let (body, cache) := renderBody hashRow f visible text
    (full || !scrollback.isEmpty || transition) { cache with lastAlt := some alt }
  (leave ++ inject ++ enter ++ body, cache)

/-- `Screen::render`. -/
def Screen.render (s : Screen) (full : Bool) (cache : RenderCache) : List Sequence × RenderCache :=
  renderScreenImpl hashRow s.terminal.grid.toFrame (s.terminal.grid.visibleRows.map Row.toLine)
    s.terminal.state.title [] full s.terminal.state.inAltScreen cache

/-- `Screen::render_with_scrollback`. -/
def Screen.renderWithScrollback (s : Screen) (scrollback : List (List Sequence)) (cache : RenderCache) :
    List Sequence × RenderCache :=
  renderScreenImpl hashRow s.terminal.grid.toFrame (s.terminal.grid.visibleRows.map Row.toLine)
    s.terminal.state.title scrollback true s.terminal.state.inAltScreen cache

end Frame

/-! ### Scrollback -/

namespace Screen

/-- `take_pending_scrollback`: the lines that were captured since the last call. -/
def takePendingScrollback (s : Screen) : List (List Sequence) × Screen :=
  let g := s.terminal.grid
  let lines := (g.scrollbackRows.drop g.pendingStart).take (g.scrollbackLen - g.pendingStart)
  (lines.map fun row => renderLine row.toLine g.styleTable,
    { s with terminal.grid.pendingStart := g.scrollbackLen })

/-- `get_history`. -/
def getHistory (s : Screen) : List (List Sequence) :=
  s.terminal.grid.scrollbackRows.map fun row => renderLine row.toLine s.terminal.grid.styleTable

def takePassthrough (s : Screen) : List Bytes × Screen :=
  (s.terminal.state.pendingPassthrough, { s with terminal.state.pendingPassthrough := [] })

def takeQueuedNotifications (s : Screen) : List Bytes × Screen :=
  (s.terminal.state.queuedNotifications, { s with terminal.state.queuedNotifications := [] })

/-- `take_and_render`: what was captured goes out with a full frame, in one lock hold. -/
def takeAndRender (hashRow : Line → UInt64) (s : Screen) (cache : RenderCache) :
    (List Sequence × List Bytes) × Screen × RenderCache :=
  let (lines, s) := s.takePendingScrollback
  let (passthrough, s) := s.takePassthrough
  let (notifications, s) := s.takeQueuedNotifications
  let (out, cache) :=
    if lines.isEmpty then s.render hashRow false cache else s.renderWithScrollback hashRow lines cache
  ((out, passthrough ++ notifications), s, cache)

end Screen

end QuorumDispatch.Screen
