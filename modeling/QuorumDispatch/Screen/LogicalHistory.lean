import QuorumDispatch.Screen.Emulator

/-!
Logical history: the rows of the logical grid as chunks of cells, of which each says
whether the next one continues its line.
-/

namespace QuorumDispatch.Screen

open Lib

set_option linter.dupNamespace false

structure LogicalCell where
  ch : Char
  displayWidth : Nat
  combining : List Char
  style : Style
  wideEarlyPadding : Bool
deriving DecidableEq, Repr

structure LogicalHistoryChunk where
  cells : List LogicalCell
  endOfLine : Bool
deriving DecidableEq, Repr

/-- `logical_cells_for_row`: the last `padding` cells are there only because a wide
character did not fit. -/
def logicalCellsForRow (line : Line) (styles : StyleTable) (padding : Nat) : List LogicalCell :=
  line.cells.mapIdx fun index cell =>
    { ch := cell.c
      displayWidth := cell.width
      combining := line.combiningAt index
      style := styles.get cell.styleId
      wideEarlyPadding := decide (0 < padding) && decide (line.len - padding ≤ index) }

def logicalCellsAreOmittableBlank (cells : List LogicalCell) : Bool :=
  cells.all fun cell =>
    cell.ch == ' ' && cell.displayWidth == 1 && cell.combining.isEmpty && cell.style == {} &&
      !cell.wideEarlyPadding

inductive LogicalEmissionSurface where
  | attachReplay
  | getHistory
deriving DecidableEq, Repr

namespace Grid

def validatedOutgoingBetween (source target : Row) : Option WrapEdge := do
  let edge ← source.outgoing
  let sourceId ← source.rowId
  guard (target.rowId = some edge.target ∧ sourceId ≠ edge.target)
  guard (edgeShapeValid source target edge)
  some edge

def emittedRows (g : Grid) (surface : LogicalEmissionSurface) (inAlt : Bool) : List (Row × Bool) :=
  match surface, inAlt with
  | .attachReplay, true => g.visibleRows.map fun row => (row, false)
  | _, _ =>
      (g.scrollbackRows.map fun row => (row, true)) ++ g.visibleRows.map fun row => (row, false)

/-- The chunk of a row, given the row behind it. While the alternate screen is up the
history of the main one does not run on into it. -/
def chunkOf (styles : StyleTable) (severed : Bool) (row : Row × Bool) (next : Option (Row × Bool)) :
    LogicalHistoryChunk × Bool :=
  let boundary := severed && row.2 && next.any fun target => !target.2
  let edge := if boundary then none else next.bind fun target => validatedOutgoingBetween row.1 target.1
  let padding := ((edge.filter fun edge => edge.kind = .wideEarly).map WrapEdge.paddingCount).getD 0
  ({ cells := logicalCellsForRow row.1.toLine styles padding, endOfLine := edge.isNone }, row.2)

def chunksOfRows (styles : StyleTable) (severed : Bool) :
    List (Row × Bool) → List (LogicalHistoryChunk × Bool)
  | [] => []
  | row :: rows => chunkOf styles severed row rows.head? :: chunksOfRows styles severed rows

def lastLineStart (chunks : List (LogicalHistoryChunk × Bool)) : Nat :=
  match chunks.dropLast.reverse.findIdx? fun chunk => chunk.1.endOfLine with
  | some i => chunks.dropLast.length - i
  | none => 0

/-- The loop that drops blank lines at the end, but no history. It ends within as many
turns as there are chunks. -/
def omitBlankLines : Nat → List (LogicalHistoryChunk × Bool) → List (LogicalHistoryChunk × Bool)
  | 0, chunks => chunks
  | turns + 1, chunks =>
      match chunks.getLast? with
      | none => chunks
      | some last =>
          let start := lastLineStart chunks
          if last.1.endOfLine ∧ (chunks.drop start).all (fun chunk =>
              !chunk.2 && logicalCellsAreOmittableBlank chunk.1.cells) then
            omitBlankLines turns (chunks.take start)
          else chunks

def logicalEmission (g : Grid) (surface : LogicalEmissionSurface) (inAlt : Bool) :
    List LogicalHistoryChunk :=
  let severed := inAlt && surface = .getHistory
  let chunks := chunksOfRows g.styleTable severed (g.emittedRows surface inAlt)
  (omitBlankLines chunks.length chunks).map Prod.fst

end Grid

/-- `Screen::logical_emission`. -/
def Screen.logicalEmission (s : Screen) (surface : LogicalEmissionSurface) :
    List LogicalHistoryChunk :=
  s.logical.grid.logicalEmission surface s.logical.state.inAltScreen

/-! What an emission holds. -/

namespace Grid

end Grid

end QuorumDispatch.Screen
