import QuorumDispatch.Screen.Emulator

/-!
The sheet: what a grid shows, without the provenance of its rows and with the
scrollback and the visible lines apart. The operations are total here. They say what
the grid operations are for; that the grid performs them is proved in
`Screen.Refine`, and that they keep the geometry in `Screen.Geometry`.
-/

namespace QuorumDispatch.Screen

open Lib

structure Sheet extends Frame where
  history : List Line := []
  lines : List Line
deriving DecidableEq, Repr

structure SavedSheet where
  lines : List Line
  scrollbackLimit : Nat
  saveCols : Nat
deriving DecidableEq, Repr

namespace Sheet

def new (cols rows : UInt16) (scrollbackLimit : Nat) (logicalShadow : Bool) : Sheet :=
  let size := sanitizeDimensions cols rows
  { size, scrollbackLimit, logicalShadow, lines := List.replicate size.rows (.new size.cols) }

def withFrame (v : Sheet) (f : Frame → Frame) : Sheet := { v with toFrame := f v.toFrame }

def modifyLine (v : Sheet) (y : Nat) (f : Line → Line) : Sheet :=
  { v with lines := v.lines.modify y f }

def blankLine (v : Sheet) (fill : Cell) : Line where
  cells := List.replicate v.cols fill

def putCell (v : Sheet) (x y : Nat) (cell : Cell) : Sheet := v.modifyLine y (·.put v.cols x cell)

def eraseCells (v : Sheet) (y start stop : Nat) (blank : Cell) : Sheet :=
  if start < min stop v.cols then v.modifyLine y (·.erase v.cols start (min stop v.cols) blank)
  else v

def eraseRows (v : Sheet) (startY stopY : Nat) (blank : Cell) : Sheet :=
  (List.range' startY (stopY - startY)).foldl (fun v y => v.modifyLine y (·.eraseAll blank)) v

/-- The top line joins the history, which keeps its latest lines only. -/
def capture (v : Sheet) : Sheet :=
  if v.history.length + 1 > v.scrollbackLimit then
    { v with
      history := (v.history ++ v.lines.take 1).tail
      lines := v.lines.tail
      pendingStart := v.pendingStart - 1
      captured := v.captured ++ v.lines.take 1 }
  else
    { v with
      history := v.history ++ v.lines.take 1
      lines := v.lines.tail
      captured := v.captured ++ v.lines.take 1 }

def insertLine (v : Sheet) (y : Nat) (line : Line) : Sheet :=
  { v with lines := v.lines.insertIdx y line }

def removeLine (v : Sheet) (y : Nat) : Sheet := { v with lines := v.lines.eraseIdx y }

def scrollUp (v : Sheet) (inAltScreen : Bool) (fill : Cell) : Sheet :=
  let blank := v.blankLine fill
  if inAltScreen = false ∧ v.scrollTop = 0 ∧ 0 < v.scrollbackLimit then
    v.capture.insertLine v.scrollBottom blank
  else (v.removeLine v.scrollTop).insertLine v.scrollBottom blank

def scrollDown (v : Sheet) (fill : Cell) : Sheet :=
  (v.removeLine v.scrollBottom).insertLine v.scrollTop (v.blankLine fill)

def clearScrollback (v : Sheet) : Sheet := { v with history := [], pendingStart := 0 }

/-- Exactly `rows` lines: the last ones go, or blank ones come. -/
def fitRows (v : Sheet) : Sheet :=
  { v with
    lines := v.lines.take v.rows ++ List.replicate (v.rows - v.lines.length) (.new v.cols) }

/-- A line at `cols` cells, without half a wide character at the cut. -/
def fitLine (cols : Nat) (line : Line) : Line :=
  (line.fixWideCharOrphanAtBoundary cols).resize cols {}

def fitCols (v : Sheet) : Sheet := { v with lines := v.lines.map (fitLine v.cols) }

/-! Resizing. -/

def restoreScrollback (v : Sheet) (count : Nat) : Sheet :=
  { v with
    history := v.history.take (v.history.length - count)
    lines := v.history.drop (v.history.length - count) ++ v.lines
    pendingStart := min v.pendingStart (v.history.length - count) }

def blankRow (v : Sheet) (line : Line) : Bool :=
  line.cells.zipIdx.all fun (cell, column) =>
    (cell.c == ' ' || cell.c == '\x00') &&
      (!v.logicalShadow || (line.combiningAt column).isEmpty)

def chopBlankBottomRows (v : Sheet) : Nat → Nat × Sheet
  | 0 => (0, v)
  | max + 1 =>
      if v.cursorY + 1 < v.lines.length ∧ v.lines.getLast?.all v.blankRow then
        let (chopped, v) := chopBlankBottomRows { v with lines := v.lines.dropLast } max
        (chopped + 1, v)
      else (0, v)

def growRows (v : Sheet) (rows : Nat) : Sheet :=
  let restoreCount := min (rows - v.rows) v.history.length
  { v.restoreScrollback restoreCount with
    cursorY := satAdd v.cursorY (min restoreCount 65535) }

def shrinkRows (v : Sheet) (rows : Nat) : Sheet :=
  let (chopped, v') := v.chopBlankBottomRows (v.rows - rows)
  let push := min (v.rows - rows - chopped) v.cursorY
  (capture^[push] v').withFrame fun f => { f with cursorY := f.cursorY - push }

/-- The frame at its new size. `keepWrap` says that a deferred wrap survives, which
the logical grid decides by provenance. -/
def resizeFrame (f : Frame) (size : TerminalSize) (keepWrap : Bool) : Frame :=
  let f := { f with size }.clampCursor
  { f with wrapPending := f.wrapPending && keepWrap }.resetScrollRegion.resetTabStops

def resize (v : Sheet) (size : TerminalSize) (keepWrap : Bool) : Sheet :=
  ({ v with toFrame := resizeFrame v.toFrame size keepWrap }.fitRows).fitCols

def resizeGrid (v : Sheet) (inAltScreen : Bool) (cols rows : UInt16) (keepWrap : Bool) : Sheet :=
  let grown := if inAltScreen = false ∧ v.rows < rows.toNat then v.growRows rows.toNat else v
  let shrunk :=
    if inAltScreen = false ∧ 0 < rows.toNat ∧ rows.toNat < v.rows then grown.shrinkRows rows.toNat
    else grown
  shrunk.resize (sanitizeDimensions cols rows) keepWrap

end Sheet

/-! ### The display -/

structure Display where
  sheet : Sheet
  state : ScreenState SavedSheet := {}
deriving DecidableEq, Repr

namespace Display

open Terminal (oscNumber oscBytes)

def withSheet (d : Display) (f : Sheet → Sheet) : Display := { d with sheet := f d.sheet }

def withFrame (d : Display) (f : Frame → Frame) : Display := d.withSheet (·.withFrame f)

def withModes (d : Display) (f : TerminalModes → TerminalModes) : Display :=
  d.withFrame fun g => { g with modes := f g.modes }

def withState (d : Display) (f : ScreenState SavedSheet → ScreenState SavedSheet) : Display :=
  { d with state := f d.state }

def compactStyles (v : Sheet) (saved : Option SavedSheet) : Sheet :=
  v.withFrame fun f => { f with
    styleTable := compactTable f.styleTable
      (v.history ++ v.lines ++ (saved.map SavedSheet.lines).getD []) }

/-- The id of a style, and the table after it. A table without bad slots does not panic,
so that the default is not used. -/
def intern (d : Display) (style : Style) : Nat × Display :=
  let r := (d.sheet.styleTable.intern style).getD (0, d.sheet.styleTable)
  (r.1, d.withFrame fun f => { f with styleTable := r.2 })

def internWithGc (d : Display) (style : Style) : Nat × Display :=
  let r := d.intern style
  if r.1 = 0 ∧ style.isDefault = false ∧ r.2.sheet.styleTable.isFull = true then
    (r.2.withSheet (compactStyles · r.2.state.savedGrid)).intern style
  else r

def blankCell (d : Display) : Cell × Display :=
  let (styleId, d) := d.internWithGc { bg := d.state.currentStyle.bg }
  ({ c := ' ', styleId, width := 1 }, d)

def scrollUp (d : Display) : Display :=
  let (fill, d) := d.blankCell
  d.withSheet (·.scrollUp d.state.inAltScreen fill)

def scrollDown (d : Display) : Display :=
  let (fill, d) := d.blankCell
  d.withSheet (·.scrollDown fill)

def lineFeed (d : Display) : Display :=
  if d.sheet.cursorY = d.sheet.scrollBottom then d.scrollUp
  else if d.sheet.cursorY < d.sheet.rows - 1 then
    d.withFrame fun f => { f with cursorY := f.cursorY + 1 }
  else d

def saveCursor (d : Display) (altEpoch : Option Nat) (savedByAlt1049 : Bool) : Display :=
  let saved : SavedCursor :=
    { x := d.sheet.cursorX
      y := d.sheet.cursorY
      style := d.state.currentStyle
      g0Charset := d.sheet.modes.g0Charset
      g1Charset := d.sheet.modes.g1Charset
      activeCharset := d.sheet.modes.activeCharset
      autowrapMode := d.sheet.modes.autowrapMode
      originMode := d.sheet.modes.originMode
      wrapPending := d.sheet.wrapPending
      altEpoch
      savedByAlt1049 }
  d.withState fun s => { s with savedCursorState := some saved }

/-- A deferred wrap that lost its row goes, on the logical grid. -/
def dropWrap (invalid : Bool) (f : Frame) : Frame :=
  { f with wrapPending := f.wrapPending && !(invalid && f.logicalShadow) }

def restoreCursor (d : Display) (geometryInvalid : Bool) : Display :=
  let d := d.withFrame (dropWrap geometryInvalid)
  match d.state.savedCursorState with
  | none => d
  | some saved =>
      let d := d.withFrame fun f =>
        saved.place (dropWrap geometryInvalid { f with wrapPending := saved.wrapPending })
      d.withState fun s => { s with currentStyle := saved.style }

def altFrame (f : Frame) : Frame :=
  { f.resetScrollRegion with scrollbackLimit := 0, cursorX := 0, cursorY := 0, wrapPending := false }

def suspendMain (d : Display) : Display :=
  let v := d.sheet
  let saved : SavedSheet :=
    { lines := v.lines, scrollbackLimit := v.scrollbackLimit, saveCols := v.cols }
  { sheet := { v with
      toFrame := altFrame v.toFrame
      lines := List.replicate v.rows (.new v.cols) }
    state := { d.state with
      savedGrid := some saved
      savedScrollRegion := some (v.scrollTop, v.scrollBottom)
      savedModes := some v.modes
      inAltScreen := true } }

def beginEpoch (d : Display) (saveCursor : Bool) : Display :=
  let altEpoch := d.state.nextAltEpoch
  let d := d.withState fun s => { s with nextAltEpoch := nextU64 altEpoch }
  if saveCursor then d.saveCursor altEpoch true else d

def enterAltScreen (d : Display) (saveCursor : Bool) : Display :=
  if d.state.inAltScreen then d else (d.beginEpoch saveCursor).suspendMain

def restoreSaved (v : Sheet) (saved : SavedSheet) : Sheet :=
  ({ v with lines := saved.lines, scrollbackLimit := saved.scrollbackLimit }.fitRows).fitCols

def restoreRegion (f : Frame) (region : Option (Nat × Nat)) : Frame :=
  match region with
  | some (top, bottom) =>
      let top := min top (f.rows - 1)
      { f with scrollTop := top, scrollBottom := max (min bottom (f.rows - 1)) top }
  | none => f.resetScrollRegion

def geometryInvalid (f : Frame) (saved : SavedSheet) (cursor : Option SavedCursor) : Bool :=
  f.cols != saved.saveCols ||
    cursor.any fun cursor => decide (min f.rows saved.lines.length ≤ cursor.y)

def resumeMain (d : Display) : Display :=
  let sheet := match d.state.savedGrid with
    | none => d.sheet
    | some saved => restoreSaved d.sheet saved
  let sheet := match d.state.savedModes with
    | some modes => sheet.withFrame fun f => { f with modes }
    | none => sheet
  { sheet, state := { d.state with inAltScreen := false, savedGrid := none, savedModes := none } }

def resumeInvalid (d : Display) : Bool :=
  d.state.savedGrid.any fun saved =>
    geometryInvalid d.sheet.toFrame saved d.state.savedCursorState

def resumeRegion (d : Display) : Display :=
  { sheet := compactStyles (d.sheet.withFrame (restoreRegion · d.state.savedScrollRegion)) none
    state := { d.state with savedScrollRegion := none } }

def exitAltScreen (d : Display) (doRestoreCursor : Bool) : Display :=
  if !d.state.inAltScreen then d
  else
    (if doRestoreCursor then d.resumeMain.restoreCursor d.resumeInvalid else d.resumeMain).resumeRegion

/-! Printing. -/

def markColumn (v : Sheet) : Nat :=
  let x := if v.wrapPending then v.cursorX else v.cursorX - 1
  if ((v.lines.getD v.cursorY { cells := [] }).widthAt x = 0) ∧ 0 < x then x - 1 else x

def handleCombiningMark (d : Display) (c : Char) : Display :=
  let v := d.sheet
  if v.wrapPending = false ∧ v.cursorX = 0 then d
  else
    let x := markColumn v
    if (v.lines.getD v.cursorY { cells := [] }).combiningLen x < maxCombining then
      d.withSheet (·.modifyLine v.cursorY (·.pushCombining x c))
    else d

def performDeferredWrap (d : Display) : Display :=
  (d.withFrame fun f => { f with wrapPending := false, cursorX := 0 }).lineFeed

def wideAtMargin (d : Display) (width : Nat) : Option Display :=
  if width = 2 ∧ d.sheet.cursorX ≥ d.sheet.cols - 1 then
    if d.sheet.modes.autowrapMode then
      if d.sheet.cols < 2 then none
      else
        let (blank, d) := d.blankCell
        some (d.withSheet fun v =>
          v.modifyLine v.cursorY (·.set v.cursorX blank)).performDeferredWrap
    else none
  else some d

def advance (f : Frame) (width : Nat) : Frame :=
  let newX := (f.cursorX + width) % 65536
  if newX ≥ f.cols then
    { f with cursorX := f.cols - 1, wrapPending := f.wrapPending || f.modes.autowrapMode }
  else { f with cursorX := newX }

def putChar (d : Display) (c : Char) (width : Nat) : Display :=
  let (styleId, d) := d.internWithGc d.state.currentStyle
  (d.withSheet fun v => v.putCell v.cursorX v.cursorY { c, styleId, width := width % 256 }).withFrame
    (advance · width)

def print (charWidth : Char → Nat) (d : Display) (c : Char) : Display :=
  let d := d.withState fun s => { s with lastPrintedChar := c }
  let c := d.sheet.modes.mapCharset c
  let width := charWidth c
  if width = 0 then d.handleCombiningMark c
  else
    let d := if d.sheet.wrapPending ∧ d.sheet.modes.autowrapMode then d.performDeferredWrap else d
    match d.wideAtMargin width with
    | none => d
    | some d => d.putChar c width

def execute (d : Display) (byte : UInt8) : Display :=
  match byte.toNat with
  | 0x0D => d.withFrame fun f => { f with cursorX := 0, wrapPending := false }
  | 0x0A | 0x0B | 0x0C => (d.withFrame fun f => { f with wrapPending := false }).lineFeed
  | 0x08 => d.withFrame (·.cursorBack 1)
  | 0x09 => d.withFrame fun f => { f with wrapPending := false, cursorX := f.nextTabStop f.cursorX }
  | 0x0E => d.withModes fun m => { m with activeCharset := .g1 }
  | 0x0F => d.withModes fun m => { m with activeCharset := .g0 }
  | 0x07 => d.withState (·.pushPassthrough [0x07])
  | _ => d

/-! Control sequences. -/

def csiEraseDisplay (d : Display) (mode : Nat) : Display :=
  let (blank, d) := d.blankCell
  let x := d.sheet.cursorX
  let y := d.sheet.cursorY
  match mode with
  | 0 => d.withSheet fun v => (v.eraseCells y x v.cols blank).eraseRows (y + 1) v.rows blank
  | 1 => d.withSheet fun v => (v.eraseRows 0 y blank).eraseCells y 0 (x + 1) blank
  | 2 => d.withSheet fun v => v.eraseRows 0 v.rows blank
  | 3 => (d.withSheet (·.clearScrollback)).withState (·.pushPassthrough (ascii "\x1b[3J"))
  | _ => d

def csiEraseLine (d : Display) (mode : Nat) : Display :=
  let (blank, d) := d.blankCell
  let x := d.sheet.cursorX
  let y := d.sheet.cursorY
  match mode with
  | 0 => d.withSheet fun v => v.eraseCells y x v.cols blank
  | 1 => d.withSheet fun v => v.eraseCells y 0 (x + 1) blank
  | 2 => d.withSheet fun v => v.eraseCells y 0 v.cols blank
  | _ => d

def csiEraseCharacter (d : Display) (n : Nat) : Display :=
  let (blank, d) := d.blankCell
  d.withSheet fun v => v.eraseCells v.cursorY v.cursorX (v.cursorX + n) blank

def blankContinuation (x : Nat) (blank : Cell) (l : Line) : Line :=
  let l := l.set x blank
  if 0 < x ∧ l.widthAt (x - 1) = 2 then l.set (x - 1) blank else l

def fixDeleted (x : Nat) (blank : Cell) (l : Line) : Line :=
  if l.widthAt x = 0 then blankContinuation x blank l else l

def deleteCells (cols x n : Nat) (blank : Cell) (l : Line) : Line :=
  fixDeleted x blank ((fun l => (l.remove x).push blank)^[min n (cols - x)] (l.fixupWideCharAt cols x))

def csiDeleteCharacter (d : Display) (n : Nat) : Display :=
  let (blank, d) := d.blankCell
  d.withSheet fun v => v.modifyLine v.cursorY (deleteCells v.cols v.cursorX n blank)

def fixInserted (last : Nat) (blank : Cell) (l : Line) : Line :=
  if l.widthAt last = 2 then l.set last blank
  else if l.widthAt last = 0 then blankContinuation last blank l
  else l

def insertCells (cols x n : Nat) (blank : Cell) (l : Line) : Line :=
  fixInserted (cols - 1) blank
    ((fun l => l.pop.insert x blank)^[min n (cols - x)] (l.fixupWideCharAt cols x))

def csiInsertCharacter (d : Display) (n : Nat) : Display :=
  let (blank, d) := d.blankCell
  d.withSheet fun v => v.modifyLine v.cursorY (insertCells v.cols v.cursorX n blank)

/-- Move lines within the region: one leaves at `out` and a blank one comes in at
`into`, `n` times. -/
def shiftLines (v : Sheet) (n out into : Nat) (blank : Cell) : Sheet :=
  (fun v => (v.removeLine out).insertLine into (v.blankLine blank))^[n] v

def csiDeleteLines (d : Display) (n : Nat) : Display :=
  let (blank, d) := d.blankCell
  let y := d.sheet.cursorY
  let bottom := d.sheet.scrollBottom
  if d.sheet.scrollTop ≤ y ∧ y ≤ bottom then
    d.withSheet fun v =>
      shiftLines (v.withFrame fun f => { f with wrapPending := false }) (min n (bottom - y + 1))
        y bottom blank
  else d

def csiInsertLines (d : Display) (n : Nat) : Display :=
  let (blank, d) := d.blankCell
  let y := d.sheet.cursorY
  let bottom := d.sheet.scrollBottom
  if d.sheet.scrollTop ≤ y ∧ y ≤ bottom then
    d.withSheet fun v =>
      shiftLines (v.withFrame fun f => { f with wrapPending := false }) (min n (bottom - y + 1))
        bottom y blank
  else d

def csiSetScrollingRegion (d : Display) (top bottom : Nat) : Display :=
  d.withFrame fun f => (f.setScrollingRegion top bottom).getD f

def setDecPrivateMode (d : Display) (mode : Nat) (enable : Bool) : Display :=
  match mode with
  | 1 => d.withModes fun m => { m with cursorKeyMode := enable }
  | 6 => d.withFrame fun f =>
      let f := { f with modes := { f.modes with originMode := enable } }
      if enable then { f with cursorX := 0, cursorY := f.scrollTop, wrapPending := false } else f
  | 7 => d.withModes fun m => { m with autowrapMode := enable }
  | 25 => d.withFrame fun f => { f with cursorVisible := enable }
  | 1000 | 1002 | 1003 =>
      d.withModes fun m => { m with mouseModes := m.mouseModes.set mode enable }
  | 1005 | 1006 =>
      d.withModes fun m => { m with
        mouseEncoding := if enable then (MouseEncoding.fromParam mode).getD .x10 else .x10 }
  | 1004 => d.withModes fun m => { m with focusReporting := enable }
  | 1048 => if enable then d.saveCursor none false else d.restoreCursor false
  | 2004 => d.withModes fun m => { m with bracketedPaste := enable }
  | 1049 => if enable then d.enterAltScreen true else d.exitAltScreen true
  | 1047 | 47 => if enable then d.enterAltScreen false else d.exitAltScreen false
  | _ => d

def csiSetDecPrivateMode (d : Display) (ps : List (List Nat)) (enable : Bool) : Display :=
  ps.foldl (fun d p => match p with
    | mode :: _ => d.setDecPrivateMode mode enable
    | [] => d) d

def cursorReport (f : Frame) : Bytes :=
  let row := if f.modes.originMode then f.cursorY - f.scrollTop + 1 else f.cursorY + 1
  ascii "\x1b[" ++ writeU16 row ++ ascii ";" ++ writeU16 (f.cursorX + 1) ++ ascii "R"

/-- A title of the stack is at most `maxTitle` long, so that the default is not used. -/
def csiWindow (d : Display) (cmd scope : Nat) : Display :=
  if scope = 0 ∨ scope = 2 then
    if cmd = 22 ∧ d.state.titleStack.length < 16 then
      let title := (truncate? d.state.title maxTitle).getD []
      d.withState fun s => { s with titleStack := title :: s.titleStack }
    else if cmd = 23 then
      match d.state.titleStack with
      | title :: rest => d.withState fun s => { s with title, titleStack := rest }
      | [] => d
    else d
  else d

def csiDispatch (charWidth : Char → Nat) (d : Display) (ps : List (List Nat))
    (intermediates : Bytes) (action : Char) : Display :=
  let p := param ps
  match action with
  | 'A' => d.withFrame (·.cursorUp (p 0 1))
  | 'B' => d.withFrame (·.cursorDown (p 0 1))
  | 'C' => d.withFrame (·.cursorForward (p 0 1))
  | 'D' => d.withFrame (·.cursorBack (p 0 1))
  | 'E' => d.withFrame (·.cursorNextLine (p 0 1))
  | 'F' => d.withFrame (·.cursorPrevLine (p 0 1))
  | 'G' => d.withFrame (·.cursorHorizontalAbsolute (p 0 1))
  | 'H' | 'f' => d.withFrame (·.cursorPosition (p 0 1) (p 1 1))
  | 'd' => d.withFrame (·.linePositionAbsolute (p 0 1))
  | 'J' => d.csiEraseDisplay (p 0 0)
  | 'K' => d.csiEraseLine (p 0 0)
  | 'X' => d.csiEraseCharacter (p 0 1)
  | 'P' => d.csiDeleteCharacter (p 0 1)
  | '@' => d.csiInsertCharacter (p 0 1)
  | 'b' => (print charWidth · d.state.lastPrintedChar)^[p 0 1] d
  | 'm' => d.withState fun s => { s with currentStyle := s.currentStyle.applySgr ps }
  | 'n' =>
      if intermediates = [] ∧ p 0 0 = 6 then
        d.withState (·.pushResponse (cursorReport d.sheet.toFrame))
      else d
  | 'c' =>
      if intermediates = [] ∧ p 0 0 = 0 then d.withState (·.pushResponse (ascii "\x1b[?62;c"))
      else if intermediates = ascii ">" ∧ p 0 0 = 0 then
        d.withState (·.pushResponse (ascii "\x1b[>0;10;1c"))
      else d
  | 'q' =>
      if intermediates = ascii " " then
        d.withModes fun m => { m with cursorShape := .fromParam (p 0 0 % 256) }
      else d
  | 'S' => scrollUp^[min (p 0 1) d.sheet.rows] d
  | 'T' => if ps.length ≤ 1 then scrollDown^[min (p 0 1) d.sheet.rows] d else d
  | 'M' => d.csiDeleteLines (p 0 1)
  | 'L' => d.csiInsertLines (p 0 1)
  | 'r' =>
      if intermediates = [] then d.csiSetScrollingRegion (p 0 1) (p 1 d.sheet.rows) else d
  | 's' => if intermediates = [] then d.saveCursor none false else d
  | 'u' => if intermediates = [] then d.restoreCursor false else d
  | 'g' =>
      if intermediates = [] then
        match p 0 0 with
        | 0 => d.withFrame fun f => f.clearTabStop f.cursorX
        | 3 => d.withFrame (·.clearAllTabStops)
        | _ => d
      else d
  | 't' => d.csiWindow (p 0 0) (p 1 0)
  | 'h' => if intermediates = ascii "?" then d.csiSetDecPrivateMode ps true else d
  | 'l' => if intermediates = ascii "?" then d.csiSetDecPrivateMode ps false else d
  | _ => d

/-! Escape sequences. -/

def resetFrame (f : Frame) (limit : Nat) : Frame :=
  { size := f.size
    scrollbackLimit := limit
    pendingStart := f.pendingStart
    logicalShadow := f.logicalShadow
    captured := f.captured }

/-- The limit of the main screen, which is set aside while the alternate one is up. -/
def mainLimit (d : Display) : Nat :=
  match d.state.savedGrid with
  | some saved => saved.scrollbackLimit
  | none => d.sheet.scrollbackLimit

def fullReset (d : Display) : Display :=
  let v := d.sheet.withFrame (resetFrame · d.mainLimit)
  { sheet := (v.eraseRows 0 v.rows {}).clearScrollback
    state := d.state.reset.pushPassthrough (ascii "\x1b[3J") }

def alignmentPattern (d : Display) : Display :=
  let d := d.withFrame fun f =>
    { f.resetScrollRegion with cursorX := 0, cursorY := 0, wrapPending := false }
  let (styleId, d) := d.internWithGc {}
  d.withSheet fun v => (List.range v.rows).foldl (fun v y =>
    (List.range v.cols).foldl (fun v x => v.putCell x y { c := 'E', styleId }) v) v

def reverseIndex (d : Display) : Display :=
  if d.sheet.cursorY = d.sheet.scrollTop then d.scrollDown
  else if 0 < d.sheet.cursorY then d.withFrame fun f => { f with cursorY := f.cursorY - 1 }
  else d

def escDispatch (d : Display) (intermediates : Bytes) (byte : UInt8) : Display :=
  match intermediates.map UInt8.toNat, byte.toNat with
  | [], 0x48 => d.withFrame fun f => f.setTabStop f.cursorX
  | [], 0x44 => (d.withFrame fun f => { f with wrapPending := false }).lineFeed
  | [], 0x45 => (d.withFrame fun f => { f with cursorX := 0, wrapPending := false }).lineFeed
  | [], 0x4D => d.reverseIndex
  | [], 0x37 => d.saveCursor none false
  | [], 0x38 => d.restoreCursor false
  | [], 0x63 => d.fullReset
  | [], 0x3D => d.withModes fun m => { m with keypadAppMode := true }
  | [], 0x3E => d.withModes fun m => { m with keypadAppMode := false }
  | [0x28], 0x42 => d.withModes fun m => { m with g0Charset := .ascii }
  | [0x28], 0x30 => d.withModes fun m => { m with g0Charset := .lineDrawing }
  | [0x29], 0x42 => d.withModes fun m => { m with g1Charset := .ascii }
  | [0x29], 0x30 => d.withModes fun m => { m with g1Charset := .lineDrawing }
  | [0x23], 0x38 => d.alignmentPattern
  | _, _ => d

/-- A title that is cut off a character boundary does not return; the default stands
for it. -/
def oscDispatch (d : Display) (params : List Bytes) (bellTerminated : Bool) : Display :=
  if params.isEmpty then d
  else
    match oscNumber params with
    | some 0 | some 2 =>
        match (params[1]?).bind decodeUtf8 with
        | some title =>
            let title :=
              if byteLen title ≤ maxTitle then title else (byteSlice? title maxTitle).getD []
            d.withState fun s => { s with title }
        | none => d
    | some 9 | some 777 | some 99 =>
        d.withState (·.pushNotification (oscBytes params bellTerminated))
    | _ => d.withState (·.pushPassthrough (oscBytes params bellTerminated))

def callback (charWidth : Char → Nat) (d : Display) : Callback → Display
  | .print c => d.print charWidth c
  | .execute byte => d.execute byte
  | .csiDispatch params intermediates action => d.csiDispatch charWidth params intermediates action
  | .escDispatch intermediates byte => d.escDispatch intermediates byte
  | .oscDispatch params bell => d.oscDispatch params bell

def resize (d : Display) (cols rows : UInt16) (keepWrap : Bool) : Display :=
  d.withSheet (·.resizeGrid d.state.inAltScreen cols rows keepWrap)

end Display

end QuorumDispatch.Screen
