import QuorumDispatch.Screen.Grid

/-!
The performer: what each callback of the escape-sequence parser does to a grid and
to the state beside it.

How wide a character is displayed is the business of a library, and stands here as
the parameter `charWidth`; a character without a width counts as zero columns.
-/

namespace QuorumDispatch.Screen

open Lib

def maxCombining : Nat := 16

def maxPending : Nat := 1024

def maxQueuedNotifications : Nat := 50

def maxTitle : Nat := 4096

structure SavedCursor where
  x : Nat
  y : Nat
  style : Style
  g0Charset : Charset
  g1Charset : Charset
  activeCharset : ActiveCharset
  autowrapMode : Bool
  originMode : Bool
  wrapPending : Bool
  altEpoch : Option Nat
  savedByAlt1049 : Bool
deriving DecidableEq, Repr

/-- The saved position, inside the dimensions, and the saved modes. -/
def SavedCursor.place (saved : SavedCursor) (f : Frame) : Frame :=
  { f with
    cursorX := min saved.x (f.cols - 1)
    cursorY := min saved.y (f.rows - 1)
    modes := { f.modes with
      g0Charset := saved.g0Charset
      g1Charset := saved.g1Charset
      activeCharset := saved.activeCharset
      autowrapMode := saved.autowrapMode
      originMode := saved.originMode } }

/-- The state beside the grid, over what a saved main screen is. -/
structure ScreenState (S : Type) where
  currentStyle : Style := {}
  inAltScreen : Bool := false
  savedGrid : Option S := none
  savedCursorState : Option SavedCursor := none
  savedModes : Option TerminalModes := none
  savedScrollRegion : Option (Nat × Nat) := none
  pendingResponses : List Bytes := []
  pendingPassthrough : List Bytes := []
  queuedNotifications : List Bytes := []
  title : List Char := []
  titleStack : List (List Char) := []
  lastPrintedChar : Char := ' '
  nextAltEpoch : Option Nat := some 0
deriving DecidableEq, Repr

namespace ScreenState

variable {S : Type}

def pushResponse (s : ScreenState S) (data : Bytes) : ScreenState S :=
  if s.pendingResponses.length < maxPending then
    { s with pendingResponses := s.pendingResponses ++ [data] }
  else s

def pushPassthrough (s : ScreenState S) (data : Bytes) : ScreenState S :=
  if s.pendingPassthrough.length < maxPending then
    { s with pendingPassthrough := s.pendingPassthrough ++ [data] }
  else s

def pushNotification (s : ScreenState S) (data : Bytes) : ScreenState S :=
  let queue :=
    if s.queuedNotifications.length ≥ maxQueuedNotifications then s.queuedNotifications.tail
    else s.queuedNotifications
  { s with queuedNotifications := queue ++ [data] }

def reset (s : ScreenState S) : ScreenState S :=
  { s with
    currentStyle := {}
    inAltScreen := false
    savedGrid := none
    savedModes := none
    savedCursorState := none
    savedScrollRegion := none
    title := []
    titleStack := []
    lastPrintedChar := ' ' }

end ScreenState

/-! ### Text -/

def byteLen (text : List Char) : Nat := (encodeUtf8 text).length

/-- `text[..n]`, which panics off a character boundary. -/
def byteSlice? : List Char → Nat → Option (List Char)
  | _, 0 => some []
  | [], _ + 1 => none
  | c :: text, n + 1 =>
      if c.utf8Size ≤ n + 1 then (c :: ·) <$> byteSlice? text (n + 1 - c.utf8Size) else none

/-- `String::truncate`. -/
def truncate? (text : List Char) (n : Nat) : Option (List Char) :=
  if n ≤ byteLen text then byteSlice? text n else some text

/-- `str::parse::<u16>`: digits behind an optional plus sign. -/
def parseU16 (text : List Char) : Option Nat :=
  let digits := match text with
    | '+' :: digits => digits
    | digits => digits
  if digits.isEmpty || !digits.all Char.isDigit then none
  else
    let n := digits.foldl (fun n d => 10 * n + (d.toNat - 48)) 0
    if n < 65536 then some n else none

/-- `write_u16`: decimal digits. -/
def writeU16 (n : Nat) : Bytes :=
  let digit (k : Nat) : UInt8 := UInt8.ofNat (48 + k % 10)
  (if n ≥ 10000 then [digit (n / 10000)] else []) ++
  (if n ≥ 1000 then [digit (n / 1000)] else []) ++
  (if n ≥ 100 then [digit (n / 100)] else []) ++
  (if n ≥ 10 then [digit (n / 10)] else []) ++
  [digit n]

def ascii (s : String) : Bytes := s.toList.map fun c => UInt8.ofNat c.toNat

/-! ### The terminal -/

/-- A grid with the state beside it: what `ScreenPerformer` borrows. -/
structure Terminal where
  grid : Grid
  state : ScreenState SavedGrid := {}
deriving DecidableEq, Repr

def compactTable (table : StyleTable) (lines : List Line) : StyleTable :=
  if table.styles.length ≤ 1 then table
  else
    table.reclaim ((List.range table.styles.length).map fun id =>
      id == 0 || lines.any fun line => line.cells.any fun cell => cell.styleId == id)

/-- `compact_styles`. -/
def compactStyles (g : Grid) (saved : Option SavedGrid) : Grid :=
  let rows := g.scrollbackRows ++ g.visibleRows ++ (saved.map SavedGrid.visibleCells).getD []
  { g with styleTable := compactTable g.styleTable (rows.map Row.toLine) }

def lineDrawing : Char → Char
  | 'j' => '┘'
  | 'k' => '┐'
  | 'l' => '┌'
  | 'm' => '└'
  | 'n' => '┼'
  | 'q' => '─'
  | 't' => '├'
  | 'u' => '┤'
  | 'v' => '┴'
  | 'w' => '┬'
  | 'x' => '│'
  | 'a' => '▒'
  | '`' => '◆'
  | c => c

/-- `map_charset`. -/
def TerminalModes.mapCharset (m : TerminalModes) (c : Char) : Char :=
  let charset := match m.activeCharset with
    | .g0 => m.g0Charset
    | .g1 => m.g1Charset
  match charset with
  | .lineDrawing => lineDrawing c
  | .ascii => c

/-- The parameter at `i`; a missing or zero one takes the default. -/
def param (ps : List (List Nat)) (i default : Nat) : Nat :=
  match ps[i]? with
  | some (n :: _) => if n = 0 then default else n
  | _ => default

namespace Terminal

def withGrid (t : Terminal) (f : Grid → Grid) : Terminal := { t with grid := f t.grid }

def withGrid? (t : Terminal) (f : Grid → Option Grid) : Option Terminal := do
  let grid ← f t.grid
  some { t with grid }

def withModes (t : Terminal) (f : TerminalModes → TerminalModes) : Terminal :=
  t.withGrid fun g => { g with modes := f g.modes }

def withState (t : Terminal) (f : ScreenState SavedGrid → ScreenState SavedGrid) : Terminal :=
  { t with state := f t.state }

/-- `style_table_mut().intern`. -/
def intern? (t : Terminal) (style : Style) : Option (Nat × Terminal) := do
  let (id, styleTable) ← t.grid.styleTable.intern style
  some (id, t.withGrid fun g => { g with styleTable })

/-- `intern_with_gc`: a full table is compacted once. -/
def internWithGc? (t : Terminal) (style : Style) : Option (Nat × Terminal) := do
  let (id, t) ← t.intern? style
  if id = 0 ∧ style.isDefault = false ∧ t.grid.styleTable.isFull = true then
    (t.withGrid (compactStyles · t.state.savedGrid)).intern? style
  else some (id, t)

def blankCell? (t : Terminal) : Option (Cell × Terminal) := do
  let (styleId, t) ← t.internWithGc? { bg := t.state.currentStyle.bg }
  some ({ c := ' ', styleId, width := 1 }, t)

def scrollUp? (t : Terminal) : Option Terminal := do
  let (fill, t) ← t.blankCell?
  t.withGrid? (·.scrollUp? t.state.inAltScreen fill)

def scrollDown? (t : Terminal) : Option Terminal := do
  let (fill, t) ← t.blankCell?
  t.withGrid? (·.scrollDown? fill)

def lineFeed? (t : Terminal) : Option Terminal :=
  if t.grid.cursorY = t.grid.scrollBottom then t.scrollUp?
  else if t.grid.cursorY < t.grid.rows - 1 then
    some (t.withGrid fun g => { g with cursorY := g.cursorY + 1 })
  else some t

/-- `save_cursor_with_alt`. -/
def saveCursor (t : Terminal) (altEpoch : Option Nat) (savedByAlt1049 : Bool) : Terminal :=
  let saved : SavedCursor :=
    { x := t.grid.cursorX
      y := t.grid.cursorY
      style := t.state.currentStyle
      g0Charset := t.grid.modes.g0Charset
      g1Charset := t.grid.modes.g1Charset
      activeCharset := t.grid.modes.activeCharset
      autowrapMode := t.grid.modes.autowrapMode
      originMode := t.grid.modes.originMode
      wrapPending := t.grid.wrapPending
      altEpoch
      savedByAlt1049 }
  t.withState fun s => { s with savedCursorState := some saved }

/-- `restore_cursor_after_geometry`. -/
def restoreCursor (t : Terminal) (geometryInvalid : Bool) : Terminal :=
  let t := t.withGrid (·.invalidatePendingForGeometry (.altRestore geometryInvalid))
  match t.state.savedCursorState with
  | none => t
  | some saved =>
      let t := t.withGrid fun g => (g.invalidateProvenanceKeepRaw.setWrapPending
        (saved.wrapPending && !(geometryInvalid && g.logicalShadow))).withFrame saved.place
      t.withState fun s => { s with currentStyle := saved.style }

def beginEpoch (t : Terminal) (saveCursor : Bool) : Terminal :=
  let altEpoch := t.state.nextAltEpoch
  let t := t.withState fun s => { s with nextAltEpoch := nextU64 altEpoch }
  if saveCursor then t.saveCursor altEpoch true else t

/-- The visible rows are set aside, the scrollback stays in the active grid and the
limit of the active grid becomes zero. -/
def suspendMain? (t : Terminal) (altEpoch : Option Nat) (enteredWith1049 : Bool) :
    Option Terminal := do
  let (visible, grid) ← t.grid.drainVisible?
  let saved : SavedGrid :=
    { visibleCells := visible
      scrollbackLimit := grid.scrollbackLimit
      saveCols := grid.cols
      altEpoch
      enteredWith1049
      pendingWrap := grid.pendingWrap
      sequentialEdge := grid.sequentialEdge }
  let filled := grid.fillVisibleBlank
  let alt : Grid := { filled with scrollbackLimit := 0, cursorX := 0, cursorY := 0 }
  some
    { grid := (alt.withFrame (·.resetScrollRegion)).setWrapPending false
      state := { t.state with
        savedGrid := some saved
        savedScrollRegion := some (grid.scrollTop, grid.scrollBottom)
        savedModes := some filled.modes
        inAltScreen := true } }

def enterAltScreen? (t : Terminal) (saveCursor : Bool) : Option Terminal :=
  if t.state.inAltScreen then some t
  else (t.beginEpoch saveCursor).suspendMain? t.state.nextAltEpoch saveCursor

def fitVisibleCols? (g : Grid) : Option Grid :=
  (List.range g.visibleRowCount).foldlM (fun g y =>
    g.modifyRow? y fun row => some (row.withLine fun line =>
      (line.fixWideCharOrphanAtBoundary g.cols).resize g.cols {})) g

/-- The visible rows of the main screen return, at the current dimensions. -/
def restoreSaved? (g : Grid) (saved : SavedGrid) : Option Grid :=
  let g := (g.replaceVisible saved.visibleCells).withFrame fun f =>
    { f with scrollbackLimit := saved.scrollbackLimit }
  fitVisibleCols? g.adjustVisibleToFit

def restoreRegion (g : Grid) (region : Option (Nat × Nat)) : Grid :=
  match region with
  | some (top, bottom) =>
      let top := min top (g.rows - 1)
      { g with scrollTop := top, scrollBottom := max (min bottom (g.rows - 1)) top }
  | none => g.withFrame (·.resetScrollRegion)

/-- The token of the suspended screen is good for the cursor that was saved with it. -/
def cursorMatches (cursor : Option SavedCursor) (saved : SavedGrid) : Bool :=
  cursor.any fun c => c.savedByAlt1049 && c.altEpoch.isSome && c.altEpoch == saved.altEpoch &&
    saved.enteredWith1049

/-- The main screen returns, with its modes. The answer also says whether the geometry
changed under the saved cursor, and what was restored. -/
def resumeMain? (t : Terminal) : Option (Terminal × Bool × Option SavedGrid) := do
  let grid : Grid := { t.grid with inAltDomain := false }
  let (grid, geometryInvalid, restored) ← match t.state.savedGrid with
    | none => some (grid, false, none)
    | some saved => do
        let (widthChanged, keep, saved, grid) := grid.prepareAltRestore saved
        let geometryInvalid := widthChanged ||
          t.state.savedCursorState.any fun cursor => decide (keep ≤ cursor.y)
        let grid ← restoreSaved? grid saved
        some (grid, geometryInvalid, some saved)
  let grid := match t.state.savedModes with
    | some modes => { grid with modes }
    | none => grid
  let state := { t.state with inAltScreen := false, savedGrid := none, savedModes := none }
  some ({ grid, state }, geometryInvalid, restored)

def finishRestore (t : Terminal) (restored : Option SavedGrid) (doRestoreCursor : Bool) :
    Terminal :=
  match restored with
  | some saved => t.withGrid (·.finishAltRestore saved.pendingWrap saved.sequentialEdge
      (doRestoreCursor && cursorMatches t.state.savedCursorState saved))
  | none => t

def exitAltScreen? (t : Terminal) (doRestoreCursor : Bool) : Option Terminal :=
  if !t.state.inAltScreen then some t
  else do
    let (t, geometryInvalid, restored) ← t.resumeMain?
    let t := if doRestoreCursor then t.restoreCursor geometryInvalid else t
    let t := t.finishRestore restored doRestoreCursor
    let grid := restoreRegion t.grid t.state.savedScrollRegion
    some { grid := compactStyles grid none, state := { t.state with savedScrollRegion := none } }

/-! ### Printing -/

/-- `handle_combining_mark`: the mark goes to the character before the cursor. -/
def handleCombiningMark? (t : Terminal) (c : Char) : Option Terminal :=
  let g := t.grid
  if g.cursorY ≥ g.rows then some t
  else if g.wrapPending = false ∧ g.cursorX = 0 then some t
  else
    let x := if g.wrapPending then g.cursorX else g.cursorX - 1
    if x ≥ g.cols then some t
    else do
      let row ← g.visibleRow? g.cursorY
      let cell ← row.get? x
      let x := if cell.width = 0 ∧ 0 < x then x - 1 else x
      if row.combiningLen x < maxCombining then
        t.withGrid? (·.pushPrintCombining? g.cursorY x c)
      else some t

def performDeferredWrap? (t : Terminal) : Option Terminal := do
  let (pending, grid) ← t.grid.takeQualifiedWrap?
  let t := { t with grid := { grid.setWrapPending false with cursorX := 0 } }
  let t ← t.lineFeed?
  t.withGrid? (·.publishDeferredWrap? pending)

section Print

variable (charWidth : Char → Nat)

/-- A wide character that meets the right margin pads it and wraps; `none` inside
drops the character. -/
def wideAtMargin? (t : Terminal) (width : Nat) : Option (Option Terminal) :=
  if width = 2 ∧ t.grid.cursorX ≥ t.grid.cols - 1 then
    if t.grid.modes.autowrapMode then
      if t.grid.cols < 2 then some none
      else do
        let t ← if t.grid.cursorX < t.grid.cols ∧ t.grid.cursorY < t.grid.rows then do
            let (blank, t) ← t.blankCell?
            t.withGrid? (·.setWideEarlyPadding? t.grid.cursorX t.grid.cursorY blank)
          else some t
        let t ← t.withGrid? (·.armQualifiedWrap? .wideEarly 1)
        let t ← t.performDeferredWrap?
        some (some t)
    else some none
  else some (some t)

/-- Put the character at the cursor and advance. The new column is computed on 16
bits. -/
def putChar? (t : Terminal) (c : Char) (width : Nat) : Option Terminal :=
  let x := t.grid.cursorX
  let y := t.grid.cursorY
  if x < t.grid.cols ∧ y < t.grid.rows then do
    let (styleId, t) ← t.internWithGc? t.state.currentStyle
    let t ← t.withGrid? (·.setCell? true x y { c, styleId, width := width % 256 })
    let newX := (t.grid.cursorX + width) % 65536
    if newX ≥ t.grid.cols then
      let t := t.withGrid fun g => { g with cursorX := g.cols - 1 }
      if t.grid.modes.autowrapMode then t.withGrid? (·.armQualifiedWrap? .normal 0) else some t
    else some (t.withGrid fun g => { g with cursorX := newX })
  else some t

def print? (t : Terminal) (c : Char) : Option Terminal :=
  let t := t.withState fun s => { s with lastPrintedChar := c }
  let c := t.grid.modes.mapCharset c
  let width := charWidth c
  if width = 0 then t.handleCombiningMark? c
  else do
    let t ← if t.grid.wrapPending ∧ t.grid.modes.autowrapMode then t.performDeferredWrap?
      else some t
    match ← t.wideAtMargin? width with
    | none => some t
    | some t => t.putChar? c width

end Print

/-! ### Control bytes -/

def moveCursor (t : Terminal) (f : Frame → Frame) : Terminal := t.withGrid (·.moveCursor f)

def execute? (t : Terminal) (byte : UInt8) : Option Terminal :=
  match byte.toNat with
  | 0x0D => some (t.withGrid fun g => { g with cursorX := 0 }.setWrapPending false)
  | 0x0A | 0x0B | 0x0C => (t.withGrid (·.setWrapPending false)).lineFeed?
  | 0x08 => some (t.moveCursor (·.cursorBack 1))
  | 0x09 => some (t.moveCursor fun f =>
      { f with wrapPending := false, cursorX := f.nextTabStop f.cursorX })
  | 0x0E => some (t.withModes fun m => { m with activeCharset := .g1 })
  | 0x0F => some (t.withModes fun m => { m with activeCharset := .g0 })
  | 0x07 => some (t.withState (·.pushPassthrough [0x07]))
  | _ => some t

/-! ### Control sequences -/

def csiEraseDisplay? (t : Terminal) (mode : Nat) : Option Terminal := do
  let (blank, t) ← t.blankCell?
  let x := t.grid.cursorX
  let y := t.grid.cursorY
  match mode with
  | 0 => do
      let t ← t.withGrid? (·.eraseCells? y x t.grid.cols blank)
      t.withGrid? (·.eraseRows? (y + 1) t.grid.rows blank)
  | 1 => do
      let t ← t.withGrid? (·.eraseRows? 0 y blank)
      t.withGrid? (·.eraseCells? y 0 (min (x + 1) t.grid.cols) blank)
  | 2 => t.withGrid? (·.eraseRows? 0 t.grid.rows blank)
  | 3 => do
      let t ← t.withGrid? (·.clearScrollback?)
      some (t.withState (·.pushPassthrough (ascii "\x1b[3J")))
  | _ => some t

def csiEraseLine? (t : Terminal) (mode : Nat) : Option Terminal := do
  let (blank, t) ← t.blankCell?
  let x := t.grid.cursorX
  let y := t.grid.cursorY
  match mode with
  | 0 => t.withGrid? (·.eraseCells? y x t.grid.cols blank)
  | 1 => t.withGrid? (·.eraseCells? y 0 (min (x + 1) t.grid.cols) blank)
  | 2 => t.withGrid? (·.eraseCells? y 0 t.grid.cols blank)
  | _ => some t

def csiEraseCharacter? (t : Terminal) (n : Nat) : Option Terminal := do
  let (blank, t) ← t.blankCell?
  if t.grid.cursorY < t.grid.rows then
    t.withGrid? (·.eraseCells? t.grid.cursorY t.grid.cursorX
      (min (t.grid.cursorX + n) t.grid.cols) blank)
  else some t

/-- A continuation cell at `x` is blanked, with the wide cell before it. -/
def blankContinuation? (x : Nat) (blank : Cell) (row : Row) : Option Row := do
  let row ← row.set? x blank
  if 0 < x then do
    let before ← row.get? (x - 1)
    if before.width = 2 then row.set? (x - 1) blank else some row
  else some row

/-- A continuation cell that a deletion shifted to `x`. -/
def fixDeleted? (x cols : Nat) (blank : Cell) (row : Row) : Option Row :=
  if x < cols then do
    let cell ← row.get? x
    if cell.width = 0 then blankContinuation? x blank row else some row
  else some row

def fixInserted? (last : Nat) (blank : Cell) (row : Row) : Option Row := do
  let cell ← row.get? last
  if cell.width = 2 then row.set? last blank
  else if cell.width = 0 then blankContinuation? last blank row
  else some row

/-- The row is shifted `n` times, and the half of a wide character that this left is
mended. -/
def editRow? (g : Grid) (x y n : Nat) (shift mend : Row → Option Row) : Option Grid := do
  let g ← g.prepareAddressedWrite? y
  let g ← g.fixupWideCharAt? x y
  let g ← times n (·.modifyRow? y shift) g
  g.modifyRow? y mend

def deleteCell? (x : Nat) (blank : Cell) (row : Row) : Option Row := do
  let row ← row.remove? x
  some (row.withLine (·.push blank))

def csiDeleteCharacter? (t : Terminal) (n : Nat) : Option Terminal := do
  let (blank, t) ← t.blankCell?
  let x := t.grid.cursorX
  let y := t.grid.cursorY
  let cols := t.grid.cols
  if y < t.grid.rows then
    t.withGrid? (editRow? · x y (min n (cols - x)) (deleteCell? x blank) (fixDeleted? x cols blank))
  else some t

def insertCell? (x : Nat) (blank : Cell) (row : Row) : Option Row :=
  (row.withLine (·.pop)).insert? x blank

def csiInsertCharacter? (t : Terminal) (n : Nat) : Option Terminal := do
  let (blank, t) ← t.blankCell?
  let x := t.grid.cursorX
  let y := t.grid.cursorY
  let cols := t.grid.cols
  if y < t.grid.rows then
    t.withGrid? (editRow? · x y (min n (cols - x)) (insertCell? x blank)
      (fixInserted? (cols - 1) blank))
  else some t

def csiScrollUpN? (t : Terminal) (n : Nat) : Option Terminal :=
  times (min n t.grid.rows) scrollUp? t

def csiScrollDownN? (t : Terminal) (n : Nat) : Option Terminal :=
  times (min n t.grid.rows) scrollDown? t

/-- A row leaves at `out` and a blank one comes in at `into`, `n` times. -/
def shiftRows? (g : Grid) (n out into y bottom : Nat) (blank : Cell) : Option Grid :=
  times n (fun g =>
    if y ≤ bottom ∧ bottom < g.visibleRowCount then
      let g := g.removeVisibleRow out
      let (row, g) := g.newBlankRow blank
      g.insertVisibleRow? into row
    else some g) g

def csiDeleteLines? (t : Terminal) (n : Nat) : Option Terminal := do
  let (blank, t) ← t.blankCell?
  let y := t.grid.cursorY
  let bottom := t.grid.scrollBottom
  if t.grid.scrollTop ≤ y ∧ y ≤ bottom then
    let t := t.withGrid (·.setWrapPending false)
    t.withGrid? (shiftRows? · (min n (bottom - y + 1)) y bottom y bottom blank)
  else some t

def csiInsertLines? (t : Terminal) (n : Nat) : Option Terminal := do
  let (blank, t) ← t.blankCell?
  let y := t.grid.cursorY
  let bottom := t.grid.scrollBottom
  if t.grid.scrollTop ≤ y ∧ y ≤ bottom then
    let t := t.withGrid (·.setWrapPending false)
    t.withGrid? (shiftRows? · (min n (bottom - y + 1)) bottom y y bottom blank)
  else some t

def csiSetScrollingRegion (t : Terminal) (top bottom : Nat) : Terminal :=
  match t.grid.toFrame.setScrollingRegion top bottom with
  | some f => t.moveCursor fun _ => f
  | none => t

/-- One parameter of `csi_set_dec_private_mode`. -/
def setDecPrivateMode? (t : Terminal) (mode : Nat) (enable : Bool) : Option Terminal :=
  match mode with
  | 1 => some (t.withModes fun m => { m with cursorKeyMode := enable })
  | 6 =>
      let t := t.withModes fun m => { m with originMode := enable }
      some (if enable then
          t.moveCursor fun f => { f with cursorX := 0, cursorY := f.scrollTop, wrapPending := false }
        else t)
  | 7 => some (t.withModes fun m => { m with autowrapMode := enable })
  | 25 => some (t.withGrid fun g => { g with cursorVisible := enable })
  | 1000 | 1002 | 1003 =>
      some (t.withModes fun m => { m with mouseModes := m.mouseModes.set mode enable })
  | 1005 | 1006 =>
      some (t.withModes fun m => { m with
        mouseEncoding := if enable then (MouseEncoding.fromParam mode).getD .x10 else .x10 })
  | 1004 => some (t.withModes fun m => { m with focusReporting := enable })
  | 1048 => some (if enable then t.saveCursor none false else t.restoreCursor false)
  | 2004 => some (t.withModes fun m => { m with bracketedPaste := enable })
  | 1049 => if enable then t.enterAltScreen? true else t.exitAltScreen? true
  | 1047 | 47 => if enable then t.enterAltScreen? false else t.exitAltScreen? false
  | _ => some t

def csiSetDecPrivateMode? (t : Terminal) (ps : List (List Nat)) (enable : Bool) :
    Option Terminal :=
  ps.foldlM (fun t p => match p with
    | mode :: _ => t.setDecPrivateMode? mode enable
    | [] => some t) t

def cursorReport (t : Terminal) : Bytes :=
  let row := if t.grid.modes.originMode then t.grid.cursorY - t.grid.scrollTop + 1
    else t.grid.cursorY + 1
  ascii "\x1b[" ++ writeU16 row ++ ascii ";" ++ writeU16 (t.grid.cursorX + 1) ++ ascii "R"

def csiWindow? (t : Terminal) (cmd scope : Nat) : Option Terminal :=
  if scope = 0 ∨ scope = 2 then
    if cmd = 22 ∧ t.state.titleStack.length < 16 then do
      let title ← truncate? t.state.title maxTitle
      some (t.withState fun s => { s with titleStack := title :: s.titleStack })
    else if cmd = 23 then
      match t.state.titleStack with
      | title :: rest => some (t.withState fun s => { s with title, titleStack := rest })
      | [] => some t
    else some t
  else some t

def csiDispatch? (charWidth : Char → Nat) (t : Terminal) (ps : List (List Nat))
    (intermediates : Bytes) (action : Char) : Option Terminal :=
  let p := param ps
  match action with
  | 'A' => some (t.moveCursor (·.cursorUp (p 0 1)))
  | 'B' => some (t.moveCursor (·.cursorDown (p 0 1)))
  | 'C' => some (t.moveCursor (·.cursorForward (p 0 1)))
  | 'D' => some (t.moveCursor (·.cursorBack (p 0 1)))
  | 'E' => some (t.moveCursor (·.cursorNextLine (p 0 1)))
  | 'F' => some (t.moveCursor (·.cursorPrevLine (p 0 1)))
  | 'G' => some (t.moveCursor (·.cursorHorizontalAbsolute (p 0 1)))
  | 'H' | 'f' => some (t.moveCursor (·.cursorPosition (p 0 1) (p 1 1)))
  | 'd' => some (t.moveCursor (·.linePositionAbsolute (p 0 1)))
  | 'J' => t.csiEraseDisplay? (p 0 0)
  | 'K' => t.csiEraseLine? (p 0 0)
  | 'X' => t.csiEraseCharacter? (p 0 1)
  | 'P' => t.csiDeleteCharacter? (p 0 1)
  | '@' => t.csiInsertCharacter? (p 0 1)
  | 'b' => times (p 0 1) (fun t' => t'.print? charWidth t.state.lastPrintedChar) t
  | 'm' => some (t.withState fun s => { s with currentStyle := s.currentStyle.applySgr ps })
  | 'n' =>
      some (if intermediates = [] ∧ p 0 0 = 6 then t.withState (·.pushResponse t.cursorReport)
        else t)
  | 'c' =>
      some (if intermediates = [] ∧ p 0 0 = 0 then
          t.withState (·.pushResponse (ascii "\x1b[?62;c"))
        else if intermediates = ascii ">" ∧ p 0 0 = 0 then
          t.withState (·.pushResponse (ascii "\x1b[>0;10;1c"))
        else t)
  | 'q' =>
      some (if intermediates = ascii " " then
          t.withModes fun m => { m with cursorShape := .fromParam (p 0 0 % 256) }
        else t)
  | 'S' => t.csiScrollUpN? (p 0 1)
  | 'T' => if ps.length ≤ 1 then t.csiScrollDownN? (p 0 1) else some t
  | 'M' => t.csiDeleteLines? (p 0 1)
  | 'L' => t.csiInsertLines? (p 0 1)
  | 'r' =>
      some (if intermediates = [] then t.csiSetScrollingRegion (p 0 1) (p 1 t.grid.rows) else t)
  | 's' => some (if intermediates = [] then t.saveCursor none false else t)
  | 'u' => some (if intermediates = [] then t.restoreCursor false else t)
  | 'g' =>
      some (if intermediates = [] then
          match p 0 0 with
          | 0 => t.withGrid fun g => g.withFrame (·.clearTabStop g.cursorX)
          | 3 => t.withGrid (·.withFrame (·.clearAllTabStops))
          | _ => t
        else t)
  | 't' => t.csiWindow? (p 0 0) (p 1 0)
  | 'h' => if intermediates = ascii "?" then t.csiSetDecPrivateMode? ps true else some t
  | 'l' => if intermediates = ascii "?" then t.csiSetDecPrivateMode? ps false else some t
  | _ => some t

/-! ### Escape sequences -/

/-- The limit of the main screen, which the saved grid keeps while the alternate
screen is up. -/
def mainLimit (t : Terminal) : Nat :=
  match t.state.savedGrid with
  | some saved => saved.scrollbackLimit
  | none => t.grid.scrollbackLimit

def resetGrid (g : Grid) (limit : Nat) : Grid :=
  let g : Grid := { g with
    cursorX := 0
    cursorY := 0
    cursorVisible := true
    modes := {}
    scrollbackLimit := limit
    inAltDomain := false
    styleTable := {} }
  (g.withFrame fun f => f.resetScrollRegion.resetTabStops).setWrapPending false

/-- RIS, the full reset. The alternate and the saved main screen are dropped, and
the limit that the latter kept is put back. -/
def fullReset? (t : Terminal) : Option Terminal := do
  let grid := resetGrid t.grid t.mainLimit
  let grid ← grid.eraseRows? 0 grid.rows {}
  let grid ← grid.clearScrollback?
  some { grid, state := t.state.reset.pushPassthrough (ascii "\x1b[3J") }

def alignmentPattern? (t : Terminal) : Option Terminal := do
  let t := t.withGrid fun g =>
    { g.withFrame (·.resetScrollRegion) with cursorX := 0, cursorY := 0 }.setWrapPending false
  let (styleId, t) ← t.internWithGc? {}
  let grid ← (List.range t.grid.rows).foldlM (fun g y =>
    (List.range g.cols).foldlM (fun g x => g.setCell? false x y { c := 'E', styleId }) g) t.grid
  some { t with grid }

/-- Up one row, scrolling down at the top of the region. The raw wrap bit stays. -/
def reverseIndex? (t : Terminal) : Option Terminal :=
  let t := t.withGrid (·.invalidateProvenanceKeepRaw)
  if t.grid.cursorY = t.grid.scrollTop then t.scrollDown?
  else if 0 < t.grid.cursorY then
    some (t.withGrid fun g => { g with cursorY := g.cursorY - 1 })
  else some t

def escDispatch? (t : Terminal) (intermediates : Bytes) (byte : UInt8) : Option Terminal :=
  match intermediates.map UInt8.toNat, byte.toNat with
  | [], 0x48 => some (t.withGrid fun g => g.withFrame (·.setTabStop g.cursorX))
  | [], 0x44 => (t.withGrid (·.setWrapPending false)).lineFeed?
  | [], 0x45 => (t.withGrid fun g => { g with cursorX := 0 }.setWrapPending false).lineFeed?
  | [], 0x4D => t.reverseIndex?
  | [], 0x37 => some (t.saveCursor none false)
  | [], 0x38 => some (t.restoreCursor false)
  | [], 0x63 => t.fullReset?
  | [], 0x3D => some (t.withModes fun m => { m with keypadAppMode := true })
  | [], 0x3E => some (t.withModes fun m => { m with keypadAppMode := false })
  | [0x28], 0x42 => some (t.withModes fun m => { m with g0Charset := .ascii })
  | [0x28], 0x30 => some (t.withModes fun m => { m with g0Charset := .lineDrawing })
  | [0x29], 0x42 => some (t.withModes fun m => { m with g1Charset := .ascii })
  | [0x29], 0x30 => some (t.withModes fun m => { m with g1Charset := .lineDrawing })
  | [0x23], 0x38 => t.alignmentPattern?
  | _, _ => some t

/-! ### Operating system commands -/

def oscBytes (params : List Bytes) (bellTerminated : Bool) : Bytes :=
  ascii "\x1b]" ++ (ascii ";").intercalate params ++
    if bellTerminated then [0x07] else ascii "\x1b\\"

def oscNumber (params : List Bytes) : Option Nat :=
  (params.head?.bind decodeUtf8).bind parseU16

/-- `osc_dispatch`: titles are kept, all else is forwarded. -/
def oscDispatch? (t : Terminal) (params : List Bytes) (bellTerminated : Bool) : Option Terminal :=
  if params.isEmpty then some t
  else
    match oscNumber params with
    | some 0 | some 2 =>
        match (params[1]?).bind decodeUtf8 with
        | some title => do
            let title ← if byteLen title ≤ maxTitle then some title else byteSlice? title maxTitle
            some (t.withState fun s => { s with title })
        | none => some t
    | some 9 | some 777 | some 99 =>
        some (t.withState (·.pushNotification (oscBytes params bellTerminated)))
    | _ => some (t.withState (·.pushPassthrough (oscBytes params bellTerminated)))

end Terminal

end QuorumDispatch.Screen
