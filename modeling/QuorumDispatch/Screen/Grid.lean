import QuorumDispatch.Screen.Cell

/-!
The grid: a deque of rows, the first `scrollbackLen` of which are scrollback and
the rest visible, with the cursor, the scroll region, the modes, the tab stops, the
style table and the provenance of logical lines.

What the grid holds apart from its rows and their provenance is its frame. The
dimensions carry the proof that they were clamped to at least one, so that
`cols - 1` and `rows - 1` do not underflow. Every other subtraction and every index
that the source leaves unchecked is a step that may panic.
-/

namespace QuorumDispatch.Screen

open Lib

inductive Charset where
  | ascii
  | lineDrawing
deriving DecidableEq, Repr

inductive ActiveCharset where
  | g0
  | g1
deriving DecidableEq, Repr

inductive CursorShape where
  | default
  | blinkBlock
  | steadyBlock
  | blinkUnderline
  | steadyUnderline
  | blinkBar
  | steadyBar
deriving DecidableEq, Repr

namespace CursorShape

def fromParam : Nat → CursorShape
  | 1 => blinkBlock
  | 2 => steadyBlock
  | 3 => blinkUnderline
  | 4 => steadyUnderline
  | 5 => blinkBar
  | 6 => steadyBar
  | _ => .default

def toParam : CursorShape → Nat
  | .default => 0
  | blinkBlock => 1
  | steadyBlock => 2
  | blinkUnderline => 3
  | steadyUnderline => 4
  | blinkBar => 5
  | steadyBar => 6

end CursorShape

structure MouseModes where
  click : Bool := false
  button : Bool := false
  any : Bool := false
deriving DecidableEq, Repr

def MouseModes.set (m : MouseModes) (param : Nat) (enable : Bool) : MouseModes :=
  match param with
  | 1000 => { m with click := enable }
  | 1002 => { m with button := enable }
  | 1003 => { m with any := enable }
  | _ => m

inductive MouseEncoding where
  | x10
  | utf8
  | sgr
deriving DecidableEq, Repr

def MouseEncoding.fromParam : Nat → Option MouseEncoding
  | 1005 => some utf8
  | 1006 => some sgr
  | _ => none

structure TerminalModes where
  cursorKeyMode : Bool := false
  bracketedPaste : Bool := false
  originMode : Bool := false
  autowrapMode : Bool := true
  focusReporting : Bool := false
  mouseModes : MouseModes := {}
  mouseEncoding : MouseEncoding := .x10
  keypadAppMode : Bool := false
  cursorShape : CursorShape := .default
  g0Charset : Charset := .ascii
  g1Charset : Charset := .ascii
  activeCharset : ActiveCharset := .g0
deriving DecidableEq, Repr

structure TerminalSize where
  cols : Nat
  rows : Nat
  cols_pos : 0 < cols
  rows_pos : 0 < rows
  cols_lt : cols < 65536
  rows_lt : rows < 65536
deriving DecidableEq, Repr

def sanitizeDimensions (cols rows : UInt16) : TerminalSize where
  cols := max cols.toNat 1
  rows := max rows.toNat 1
  cols_pos := by omega
  rows_pos := by omega
  cols_lt := by have := cols.toNat_lt; omega
  rows_lt := by have := rows.toNat_lt; omega

def defaultTabStops (cols : Nat) : List Bool :=
  (List.range cols).map fun c => decide (0 < c) && c % 8 == 0

/-- `saturating_add` on 16 bits. -/
def satAdd (a b : Nat) : Nat := min (a + b) 65535

/-! ### The frame -/

/-- The fields of a grid besides its rows and their provenance. `captured` is a history
variable that no operation reads: the rows that went to the scrollback so far. -/
structure Frame where
  size : TerminalSize
  cursorX : Nat := 0
  cursorY : Nat := 0
  wrapPending : Bool := false
  scrollTop : Nat := 0
  scrollBottom : Nat := size.rows - 1
  cursorVisible : Bool := true
  modes : TerminalModes := {}
  tabStops : List Bool := defaultTabStops size.cols
  scrollbackLimit : Nat
  pendingStart : Nat := 0
  styleTable : StyleTable := {}
  logicalShadow : Bool
  captured : List Line := []
deriving DecidableEq, Repr

namespace Frame

def cols (f : Frame) : Nat := f.size.cols

def rows (f : Frame) : Nat := f.size.rows

def resetScrollRegion (f : Frame) : Frame :=
  { f with scrollTop := 0, scrollBottom := f.rows - 1 }

def clampCursor (f : Frame) : Frame :=
  { f with
    cursorX := if f.cursorX ≥ f.cols then f.cols - 1 else f.cursorX
    cursorY := if f.cursorY ≥ f.rows then f.rows - 1 else f.cursorY }

def setTabStop (f : Frame) (col : Nat) : Frame := { f with tabStops := f.tabStops.set col true }

def clearTabStop (f : Frame) (col : Nat) : Frame := { f with tabStops := f.tabStops.set col false }

def clearAllTabStops (f : Frame) : Frame := { f with tabStops := f.tabStops.map fun _ => false }

def resetTabStops (f : Frame) : Frame := { f with tabStops := defaultTabStops f.cols }

/-- The next tab stop behind `col`, or the right margin. -/
def nextTabStop (f : Frame) (col : Nat) : Nat :=
  match (List.range' (col + 1) (f.tabStops.length - (col + 1))).find?
      (fun c => f.tabStops.getD c false) with
  | some c => c
  | none => f.cols - 1

/-! The cursor commands all clear the deferred wrap. -/

def cursorUp (f : Frame) (n : Nat) : Frame :=
  let top := if f.scrollTop ≤ f.cursorY then f.scrollTop else 0
  { f with wrapPending := false, cursorY := max (f.cursorY - n) top }

def cursorDown (f : Frame) (n : Nat) : Frame :=
  let bottom := if f.cursorY ≤ f.scrollBottom then f.scrollBottom else f.rows - 1
  { f with wrapPending := false, cursorY := min (satAdd f.cursorY n) bottom }

def cursorForward (f : Frame) (n : Nat) : Frame :=
  { f with wrapPending := false, cursorX := min (satAdd f.cursorX n) (f.cols - 1) }

def cursorBack (f : Frame) (n : Nat) : Frame :=
  { f with wrapPending := false, cursorX := f.cursorX - n }

def cursorNextLine (f : Frame) (n : Nat) : Frame :=
  { f.cursorDown n with cursorX := 0 }

def cursorPrevLine (f : Frame) (n : Nat) : Frame :=
  { f.cursorUp n with cursorX := 0 }

def cursorHorizontalAbsolute (f : Frame) (col : Nat) : Frame :=
  { f with wrapPending := false, cursorX := min (col - 1) (f.cols - 1) }

/-- `csi_line_position_absolute`: a row counts from the top of the region in origin
mode and does not leave the region. -/
def linePositionAbsolute (f : Frame) (row : Nat) : Frame :=
  { f with
    wrapPending := false
    cursorY :=
      if f.modes.originMode then min (satAdd f.scrollTop (row - 1)) f.scrollBottom
      else min (row - 1) (f.rows - 1) }

def cursorPosition (f : Frame) (row col : Nat) : Frame :=
  { f.linePositionAbsolute row with cursorX := min (col - 1) (f.cols - 1) }

/-- `csi_set_scrolling_region`; an empty region is ignored. -/
def setScrollingRegion (f : Frame) (top bottom : Nat) : Option Frame :=
  let top := top - 1
  let bottom := min (bottom - 1) (f.rows - 1)
  if top ≤ bottom then
    some { f with
      scrollTop := top
      scrollBottom := bottom
      cursorX := 0
      cursorY := if f.modes.originMode then top else 0
      wrapPending := false }
  else none

end Frame

/-! ### The grid -/

structure PendingWrap where
  source : Nat
  sourceRevision : Nat
  sourceWidth : Nat
  kind : WrapKind
  paddingCount : Nat
deriving DecidableEq, Repr

structure SequentialEdge where
  source : Nat
  target : Nat
deriving DecidableEq, Repr

structure Grid extends Frame where
  cells : List Row
  scrollbackLen : Nat := 0
  nextRowId : Option Nat
  nextEdgeId : Option Nat := some 0
  pendingWrap : Option PendingWrap := none
  sequentialEdge : Option SequentialEdge := none
  inAltDomain : Bool := false
deriving DecidableEq, Repr

structure SavedGrid where
  visibleCells : List Row
  scrollbackLimit : Nat
  saveCols : Nat
  altEpoch : Option Nat
  enteredWith1049 : Bool
  pendingWrap : Option PendingWrap
  sequentialEdge : Option SequentialEdge
deriving DecidableEq, Repr

namespace Grid

/-- Rows with the ids from `start` on. -/
def newRows (cols : Nat) (start : Option Nat) : Nat → List Row × Option Nat
  | 0 => ([], start)
  | n + 1 =>
      let (rest, next) := newRows cols (nextU64 start) n
      ({ Line.new cols with rowId := start } :: rest, next)

def new (cols rows : UInt16) (scrollbackLimit : Nat) (logicalShadow : Bool) : Grid :=
  let size := sanitizeDimensions cols rows
  let (cells, next) := newRows size.cols (some 0) size.rows
  { size, scrollbackLimit, logicalShadow, cells, nextRowId := next }

def withFrame (g : Grid) (f : Frame → Frame) : Grid := { g with toFrame := f g.toFrame }

def freshRow (g : Grid) (cells : List Cell) : Row × Grid :=
  (.ofCells cells g.nextRowId, { g with nextRowId := nextU64 g.nextRowId })

def newBlankRow (g : Grid) (fill : Cell) : Row × Grid :=
  g.freshRow (List.replicate g.cols fill)

def visibleRow? (g : Grid) (y : Nat) : Option Row := g.cells[g.scrollbackLen + y]?

def modifyRow? (g : Grid) (y : Nat) (f : Row → Option Row) : Option Grid := do
  let row ← g.visibleRow? y
  let row ← f row
  some { g with cells := g.cells.set (g.scrollbackLen + y) row }

def setAt? (g : Grid) (x y : Nat) (cell : Cell) : Option Grid :=
  g.modifyRow? y (·.set? x cell)

def visibleRows (g : Grid) : List Row := (g.cells.drop g.scrollbackLen).take g.rows

def scrollbackRows (g : Grid) : List Row := g.cells.take g.scrollbackLen

/-- `visible_row_count`, a saturating subtraction. -/
def visibleRowCount (g : Grid) : Nat := g.cells.length - g.scrollbackLen

/-- `cells.len() - scrollback_len`, which underflows when the rows are too few. -/
def visibleLen? (g : Grid) : Option Nat :=
  if g.scrollbackLen ≤ g.cells.length then some (g.cells.length - g.scrollbackLen) else none

/-! Provenance. None of the operations of this part changes what a row shows. -/

def invalidateProvenanceKeepRaw (g : Grid) : Grid :=
  { g with pendingWrap := none, sequentialEdge := none }

def setWrapPending (g : Grid) (val : Bool) : Grid :=
  if val then { g with wrapPending := true }
  else { g with wrapPending := false, pendingWrap := none, sequentialEdge := none }

/-- A frame operation that clears the deferred wrap, with its provenance. -/
def moveCursor (g : Grid) (f : Frame → Frame) : Grid :=
  { g.invalidateProvenanceKeepRaw with toFrame := f g.toFrame }

def armQualifiedWrap? (g : Grid) (kind : WrapKind) (paddingCount : Nat) : Option Grid := do
  let row ← g.visibleRow? g.cursorY
  let pending := match row.rowId, row.contentRevision with
    | some source, some sourceRevision =>
        some { source, sourceRevision, sourceWidth := min row.len 65535, kind, paddingCount }
    | _, _ => none
  some { g with wrapPending := true, pendingWrap := pending }

def takeQualifiedWrap? (g : Grid) : Option (Option PendingWrap × Grid) :=
  match g.pendingWrap with
  | none => some (none, g)
  | some pending => do
      let row ← g.visibleRow? g.cursorY
      let kindValid := match pending.kind with
        | .normal => pending.paddingCount == 0
        | .wideEarly => decide (0 < pending.paddingCount)
      let valid := kindValid && row.rowId == some pending.source &&
        row.contentRevision == some pending.sourceRevision &&
        row.len == pending.sourceWidth && g.cols == pending.sourceWidth
      some (if valid then some pending else none, { g with pendingWrap := none })

def setOutgoing (g : Grid) (index : Nat) (edge : Option WrapEdge) : Grid :=
  { g with cells := g.cells.modify index fun row => { row with outgoing := edge } }

/-- The edge that a deferred wrap from `pending` creates: its row, the cursor's row
directly behind it, and an id for it. -/
def wrapEdge? (g : Grid) (pending : PendingWrap) (target : Nat) : Option (Nat × WrapEdge) := do
  guard (target ≠ pending.source)
  let source ← g.cells.findIdx? (·.rowId == some pending.source)
  guard (g.cells.findIdx? (·.rowId == some target) = some (source + 1))
  let from_ ← g.cells[source]?
  let to_ ← g.cells[source + 1]?
  guard (from_.len = pending.sourceWidth ∧ to_.len = pending.sourceWidth)
  let edgeId ← g.nextEdgeId
  some (source, { edgeId, target, kind := pending.kind, paddingCount := pending.paddingCount, validWidth := pending.sourceWidth })

def publishDeferredWrap? (g : Grid) (pending : Option PendingWrap) : Option Grid :=
  match pending with
  | none => some { g with sequentialEdge := none }
  | some pending => do
      let row ← g.visibleRow? g.cursorY
      match row.rowId with
      | none => some { g with sequentialEdge := none }
      | some target =>
          match g.wrapEdge? pending target with
          | none => some { g with sequentialEdge := none }
          | some (source, edge) =>
              some { g.setOutgoing source (some edge) with
                nextEdgeId := nextU64 g.nextEdgeId
                sequentialEdge := some { source := pending.source, target } }

def severIds (g : Grid) (doomed : List Nat) : Grid :=
  { g with
    cells := g.cells.map fun row =>
      if row.outgoing.any (fun edge => doomed.contains edge.target) ||
        row.rowId.any (fun id => doomed.contains id) then row.cut else row
    pendingWrap := g.pendingWrap.filter fun pending => !doomed.contains pending.source
    sequentialEdge := g.sequentialEdge.filter fun seq =>
      !(doomed.contains seq.source || doomed.contains seq.target) }

def edgeShapeValid (source target : Row) (edge : WrapEdge) : Bool :=
  (match edge.kind with
    | .normal => edge.paddingCount == 0
    | .wideEarly =>
        decide (0 < edge.paddingCount ∧ edge.paddingCount ≤ source.len) &&
          (source.cells.reverse.take edge.paddingCount).all
            (fun cell => cell.c == ' ' && cell.width == 1)) &&
    source.len == edge.validWidth && target.len == edge.validWidth &&
    target.rowId == some edge.target

/-- While the alternate screen is up the last history row may point into the saved
rows, which are not in the deque. -/
def suspendedBoundary (g : Grid) (index : Nat) (row : Row) (edge : WrapEdge) : Bool :=
  g.inAltDomain && index + 1 == g.scrollbackLen &&
    !g.cells.any (fun r => r.rowId == some edge.target) && row.rowId.isSome

def edgeValid (g : Grid) (index : Nat) (row : Row) (edge : WrapEdge) : Bool :=
  if g.suspendedBoundary index row edge then row.len == edge.validWidth
  else
    row.rowId.any (fun source => source != edge.target) &&
      !(g.inAltDomain && index + 1 == g.scrollbackLen) &&
      (g.cells[index + 1]?).any (fun target =>
        target.rowId == some edge.target && edgeShapeValid row target edge)

def tokenOnCursorRow (g : Grid) (pending : PendingWrap) : Bool :=
  (g.cells[g.scrollbackLen + g.cursorY]?).any (fun row =>
    row.rowId == some pending.source && row.contentRevision == some pending.sourceRevision &&
      row.len == pending.sourceWidth)

def sequentialValid (g : Grid) (seq : SequentialEdge) : Bool :=
  g.cells.zipIdx.any fun (row, index) => row.outgoing.any fun edge =>
    g.edgeValid index row edge && row.rowId == some seq.source && edge.target == seq.target &&
      !g.suspendedBoundary index row edge

def validateAllEdges (g : Grid) : Grid :=
  { g with
    cells := g.cells.mapIdx fun index row =>
      if row.outgoing.all (g.edgeValid index row) then row else row.cut
    pendingWrap := g.pendingWrap.filter g.tokenOnCursorRow
    sequentialEdge := g.sequentialEdge.filter g.sequentialValid }

inductive GeometryInvalidationReason where
  | liveResize (widthChanged : Bool)
  | altRestore (sourceInvalid : Bool)

def invalidatePendingForGeometry (g : Grid) (reason : GeometryInvalidationReason) : Grid :=
  let invalid := match reason with
    | .liveResize widthChanged => widthChanged
    | .altRestore sourceInvalid => sourceInvalid
  if invalid then
    { g.invalidateProvenanceKeepRaw with
      wrapPending := if g.logicalShadow then false else g.wrapPending }
  else g

/-- The edge into a row that is written goes, unless the stream itself continues
there. -/
def cutIncoming (g : Grid) (index : Nat) (targetId : Option Nat) (forwardStream : Bool) : Grid :=
  match (if 0 < index then g.cells[index - 1]? else none) with
  | none => g
  | some previous =>
      let authorized := forwardStream && g.sequentialEdge.any (fun seq =>
        previous.rowId == some seq.source && targetId == some seq.target &&
          previous.outgoing.any (fun edge => edge.target == seq.target))
      if previous.outgoing.any (fun edge => some edge.target == targetId) && !authorized then
        g.setOutgoing (index - 1) none
      else g

def refreshedPending (g : Grid) (row : Row) (refreshPending : Bool) : Option PendingWrap :=
  let refresh := refreshPending && g.pendingWrap.any (fun token =>
    row.rowId == some token.source && row.contentRevision == some token.sourceRevision)
  if refresh then
    match g.pendingWrap, nextU64 row.contentRevision with
    | some token, some revision => some { token with sourceRevision := revision }
    | _, _ => none
  else g.pendingWrap.filter (fun token => row.rowId != some token.source)

/-- `before_content_write`: the edges of the row are cut and its revision advances. -/
def beforeContentWrite? (g : Grid) (y : Nat) (forwardStream refreshPending : Bool) :
    Option Grid :=
  if y ≥ g.rows then some g
  else do
    let index := g.scrollbackLen + y
    let row ← g.cells[index]?
    let g := (g.setOutgoing index none).cutIncoming index row.rowId forwardStream
    let g := { g with
      cells := g.cells.modify index Row.advanceRevision
      pendingWrap := g.refreshedPending row refreshPending }
    some (if (nextU64 row.contentRevision).isNone then g.invalidateProvenanceKeepRaw else g)

def prepareAddressedWrite? (g : Grid) (y : Nat) : Option Grid := do
  let g ← g.beforeContentWrite? y false false
  some { g with sequentialEdge := none }

/-! Cells. -/

def fixupWideCharAt? (g : Grid) (x y : Nat) : Option Grid :=
  if y ≥ g.rows ∨ x ≥ g.cols then some g
  else do
    let row ← g.visibleRow? y
    let cell ← row.get? x
    if cell.width = 2 then
      let g ← if x + 1 < g.cols then g.setAt? (x + 1) y {} else some g
      g.setAt? x y {}
    else if cell.width = 0 ∧ 0 < x then
      let g ← g.setAt? (x - 1) y {}
      g.setAt? x y {}
    else some g

def clearCombining? (g : Grid) (x y : Nat) : Option Grid :=
  g.modifyRow? y fun row => some (row.withLine (·.clearCombining x))

def setCellRaw? (g : Grid) (x y : Nat) (cell : Cell) : Option Grid := do
  let g ← g.fixupWideCharAt? x y
  let g ← g.setAt? x y cell
  let g ← g.clearCombining? x y
  if cell.width = 2 ∧ x + 1 < g.cols then
    let g ← g.fixupWideCharAt? (x + 1) y
    let g ← g.setAt? (x + 1) y { c := '\x00', styleId := cell.styleId, width := 0 }
    g.clearCombining? (x + 1) y
  else some g

/-- `set_cell` and `set_print_cell`, which differ in the stream they belong to. -/
def setCell? (g : Grid) (forwardStream : Bool) (x y : Nat) (cell : Cell) : Option Grid :=
  if y ≥ g.rows ∨ x ≥ g.cols then some g
  else do
    let g ← g.beforeContentWrite? y forwardStream false
    g.setCellRaw? x y cell

/-- Written without the fixups, and with the marks of the column left in place. -/
def setWideEarlyPadding? (g : Grid) (x y : Nat) (cell : Cell) : Option Grid :=
  if y ≥ g.rows ∨ x ≥ g.cols then some g
  else do
    let g ← g.beforeContentWrite? y true false
    g.setAt? x y cell

def pushPrintCombining? (g : Grid) (y x : Nat) (mark : Char) : Option Grid := do
  let g ← g.beforeContentWrite? y true true
  g.modifyRow? y fun row => some (row.withLine (·.pushCombining x mark))

def eraseCells? (g : Grid) (y start stop : Nat) (blank : Cell) : Option Grid :=
  if y ≥ g.rows then some g
  else
    let start := min start g.cols
    let stop := min stop g.cols
    if start ≥ stop then some g
    else do
      let g ← g.beforeContentWrite? y false false
      let g ← g.fixupWideCharAt? start y
      let g ← if stop < g.cols then g.fixupWideCharAt? stop y else some g
      let g ← (List.range' start (stop - start)).foldlM (fun g i => g.setAt? i y blank) g
      g.modifyRow? y fun row => some (row.withLine (·.clearCombiningRange start stop))

def eraseRows? (g : Grid) (startY stopY : Nat) (blank : Cell) : Option Grid :=
  let startY := min startY g.rows
  let stopY := min stopY g.rows
  (List.range' startY (stopY - startY)).foldlM (fun g y => do
    let g ← g.beforeContentWrite? y false false
    g.modifyRow? y fun row => some (row.withLine (·.eraseAll blank))) g

/-! Rows. -/

/-- The edge out of the row before `index`. -/
def edgeInto (g : Grid) (index : Nat) : Option WrapEdge :=
  if 0 < index then (g.cells[index - 1]?).bind Row.outgoing else none

/-- The provenance that names a row that is about to be removed. -/
def detachRow (g : Grid) (index doomed : Nat) : Grid :=
  let g : Grid :=
    if (g.edgeInto index).any (fun edge => edge.target == doomed) then
      g.setOutgoing (index - 1) none
    else g
  { g with
    pendingWrap := g.pendingWrap.filter fun pending => pending.source != doomed
    sequentialEdge := g.sequentialEdge.filter fun seq =>
      !(seq.source == doomed || seq.target == doomed) }

def removeRowAt (g : Grid) (index : Nat) : Grid :=
  match g.cells[index]? with
  | none => g
  | some row =>
      let g : Grid := match row.rowId with
        | none => g
        | some doomed => g.detachRow index doomed
      { g with cells := g.cells.eraseIdx index }

def removeVisibleRow (g : Grid) (y : Nat) : Grid := g.removeRowAt (g.scrollbackLen + y)

/-- The edge across the seam where a row is about to be inserted. -/
def separateRows (g : Grid) (index : Nat) : Grid :=
  match (if 0 < index then g.cells[index - 1]? else none), g.cells[index]? with
  | some previous, some next =>
      if previous.outgoing.any (fun edge => next.rowId == some edge.target) then
        { g.setOutgoing (index - 1) none with
          sequentialEdge := g.sequentialEdge.filter fun seq =>
            !(previous.rowId == some seq.source && next.rowId == some seq.target) }
      else g
  | _, _ => g

/-- `insert_visible_row`; an index behind the end is out of range. -/
def insertVisibleRow? (g : Grid) (y : Nat) (row : Row) : Option Grid :=
  let index := g.scrollbackLen + y
  if index ≤ g.cells.length then
    some { g.separateRows index with cells := (g.separateRows index).cells.insertIdx index row }
  else none

def pushRow (g : Grid) (row : Row) : Grid := { g with cells := g.cells ++ [row] }

/-- The boundary moves over the top visible row, and the oldest row goes when that
exceeds the limit. -/
def captureTopRow (g : Grid) (evict : Grid → Grid) : Grid :=
  let g := { g with
    scrollbackLen := g.scrollbackLen + 1
    captured := g.captured ++ (g.visibleRow? 0).toList.map Row.toLine }
  if g.scrollbackLen > g.scrollbackLimit then
    let g := evict g
    { g with scrollbackLen := g.scrollbackLen - 1, pendingStart := g.pendingStart - 1 }
  else g

def scrollUp? (g : Grid) (inAltScreen : Bool) (fill : Cell) : Option Grid := do
  let visibleLen ← g.visibleLen?
  if inAltScreen = false ∧ g.scrollTop = 0 ∧ 0 < g.scrollbackLimit then
    let g := g.captureTopRow (·.removeRowAt 0)
    guard (1 ≤ visibleLen)
    let (blank, g) := g.newBlankRow fill
    if g.scrollBottom ≥ visibleLen - 1 then some (g.pushRow blank)
    else g.insertVisibleRow? g.scrollBottom blank
  else if g.scrollTop ≤ g.scrollBottom ∧ g.scrollBottom < visibleLen then
    if g.scrollTop = 0 ∧ g.scrollBottom = visibleLen - 1 then
      let g := g.removeVisibleRow 0
      let (blank, g) := g.newBlankRow fill
      g.insertVisibleRow? g.visibleRowCount blank
    else
      let g := g.removeVisibleRow g.scrollTop
      let (blank, g) := g.newBlankRow fill
      g.insertVisibleRow? g.scrollBottom blank
  else some g

def scrollDown? (g : Grid) (fill : Cell) : Option Grid := do
  let visibleLen ← g.visibleLen?
  if g.scrollTop ≤ g.scrollBottom ∧ g.scrollBottom < visibleLen then
    let g := g.removeVisibleRow g.scrollBottom
    let (blank, g) := g.newBlankRow fill
    g.insertVisibleRow? g.scrollTop blank
  else some g

/-- `drain` of the scrollback rows, whose range must lie in the deque. -/
def clearScrollback? (g : Grid) : Option Grid := do
  let doomed := g.scrollbackRows.filterMap Row.rowId
  let g := g.severIds doomed
  guard (g.scrollbackLen ≤ g.cells.length)
  some { g with cells := g.cells.drop g.scrollbackLen, scrollbackLen := 0, pendingStart := 0 }

/-! Alternate screen. -/

def drainVisible? (g : Grid) : Option (List Row × Grid) := do
  guard (g.scrollbackLen ≤ g.cells.length)
  some (g.cells.drop g.scrollbackLen, { g with cells := g.cells.take g.scrollbackLen })

def pushBlank (g : Grid) : Grid :=
  let (row, g) := g.freshRow (List.replicate g.cols {})
  g.pushRow row

def fillVisibleBlank (g : Grid) : Grid :=
  { Nat.iterate pushBlank g.rows g with
    inAltDomain := true
    pendingWrap := none
    sequentialEdge := none }

def replaceVisible (g : Grid) (rows : List Row) : Grid :=
  { g with cells := g.cells.take g.scrollbackLen ++ rows, inAltDomain := false }

def popRow (g : Grid) : Grid :=
  let g : Grid := match (g.cells.getLast?).bind Row.rowId with
    | some id => g.severIds [id]
    | none => g
  { g with cells := g.cells.dropLast }

/-- Rows are popped, or blank ones pushed, until there are as many as the frame has. -/
def fitVisible (g : Grid) (visibleLen : Nat) : Grid :=
  let g := Nat.iterate popRow (visibleLen - g.rows) g
  Nat.iterate pushBlank (g.rows - visibleLen) g

def adjustVisibleToFit (g : Grid) : Grid := (g.fitVisible g.visibleRowCount).validateAllEdges

def prepareAltRestore (g : Grid) (saved : SavedGrid) : Bool × Nat × SavedGrid × Grid :=
  let keep := min g.rows saved.visibleCells.length
  let widthChanged := g.cols != saved.saveCols
  let affected :=
    if widthChanged then saved.visibleCells.filterMap Row.rowId
    else (saved.visibleCells.drop keep).filterMap Row.rowId
  let visibleCells := saved.visibleCells.map fun row =>
    let row :=
      if row.rowId.any (fun id => affected.contains id) ||
        row.outgoing.any (fun edge => affected.contains edge.target) then row.cut else row
    if widthChanged then row.advanceRevision else row
  let pendingWrap :=
    if widthChanged then none
    else saved.pendingWrap.filter fun pending => !affected.contains pending.source
  let sequentialEdge :=
    if widthChanged then none
    else saved.sequentialEdge.filter fun seq =>
      !(affected.contains seq.source || affected.contains seq.target)
  (widthChanged, keep, { saved with visibleCells, pendingWrap, sequentialEdge },
    g.severIds affected)

def finishAltRestore (g : Grid) (pending : Option PendingWrap)
    (sequential : Option SequentialEdge) (authorize : Bool) : Grid :=
  let g := { g with
    inAltDomain := false
    pendingWrap := if authorize then pending else none
    sequentialEdge := if authorize then sequential else none }
  let g := g.validateAllEdges
  let g := { g with pendingWrap := g.pendingWrap.filter fun token =>
    g.tokenOnCursorRow token && g.cols == token.sourceWidth }
  g.validateAllEdges

/-! Resizing. -/

def restoreScrollback (g : Grid) (count : Nat) : Grid :=
  { g with
    scrollbackLen := g.scrollbackLen - count
    pendingStart := min g.pendingStart (g.scrollbackLen - count) }

/-- A row that `chop_blank_bottom_rows` may drop. -/
def blankRow (g : Grid) (row : Row) : Bool :=
  row.cells.zipIdx.all fun (cell, column) =>
    (cell.c == ' ' || cell.c == '\x00') &&
      (!g.logicalShadow || (row.combiningAt column).isEmpty)

/-- One turn of `chop_blank_bottom_rows`; `none` inside ends the loop. -/
def chopOne? (g : Grid) : Option (Option Grid) := do
  let visibleLen ← g.visibleLen?
  if visibleLen = 0 ∨ visibleLen - 1 ≤ g.cursorY then some none
  else do
    let last ← g.cells.getLast?
    if g.blankRow last then some (some g.popRow) else some none

/-- The rows chopped, at most `max` of them. -/
def chopBlankBottomRows? (g : Grid) : Nat → Option (Nat × Grid)
  | 0 => some (0, g)
  | max + 1 => do
      match ← g.chopOne? with
      | none => some (0, g)
      | some g' =>
          let (chopped, g') ← g'.chopBlankBottomRows? max
          some (chopped + 1, g')

def dropFront (g : Grid) : Grid :=
  let g : Grid := match (g.cells.head?).bind Row.rowId with
    | some id => g.severIds [id]
    | none => g
  { g with cells := g.cells.tail }

/-- One turn of `push_top_rows_to_scrollback`. -/
def pushTopRow? (g : Grid) : Option Grid := do
  let visibleLen ← g.visibleLen?
  if visibleLen = 0 then some g else some (g.captureTopRow dropFront)

def resizeRow (cols : Nat) (row : Row) : Row :=
  let row := if row.len ≠ cols then row.cut.advanceRevision else row
  row.withLine fun line => (line.fixWideCharOrphanAtBoundary cols).resize cols {}

/-- The deferred wrap after a resize. The logical grid keeps one at an equal width,
while its token is good. -/
def settleWrap (g : Grid) (oldCols : Nat) : Grid :=
  let g := g.invalidatePendingForGeometry (.liveResize (oldCols != g.cols))
  if g.logicalShadow = false ∨ oldCols ≠ g.cols then
    { g.invalidateProvenanceKeepRaw with wrapPending := false }
  else
    let g := g.validateAllEdges
    if g.pendingWrap.isNone then { g with wrapPending := false } else g

def resize? (g : Grid) (cols rows : UInt16) : Option Grid := do
  let oldCols := g.cols
  let size := sanitizeDimensions cols rows
  let g := { g with size }
  let visibleLen ← g.visibleLen?
  let g := g.fitVisible visibleLen
  let g := { g with
    cells := g.cells.take g.scrollbackLen ++
      (g.cells.drop g.scrollbackLen).map (resizeRow g.cols) }
  let g := g.validateAllEdges
  let g := g.withFrame (·.clampCursor)
  let g := g.settleWrap oldCols
  some (g.withFrame fun f => f.resetScrollRegion.resetTabStops)

end Grid

end QuorumDispatch.Screen
