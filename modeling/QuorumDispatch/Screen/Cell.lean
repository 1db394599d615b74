import Mathlib.Algebra.Order.Ring.Int
import QuorumDispatch.Screen.Style
import QuorumDispatch.Lib.Partial
import Mathlib.Tactic.Common

/-!
Cells and rows. A row is a line, which is what it shows, together with the
provenance that logical history needs: its identity, a revision counter and the
edge to the row that continues it.

An index out of range is a panic; the operations on lines are total and the rows
check the index first.
-/

namespace QuorumDispatch.Screen

open Lib

/-- Width 2 is the first cell of a wide character and width 0 the second. -/
structure Cell where
  c : Char := ' '
  styleId : Nat := 0
  width : Nat := 1
deriving DecidableEq, Repr

/-- What a row shows: its cells, and sparsely the combining marks by column. -/
structure Line where
  cells : List Cell
  combining : List (Nat × List Char) := []
deriving DecidableEq, Repr

namespace Line

def len (l : Line) : Nat := l.cells.length

def new (cols : Nat) : Line where
  cells := List.replicate cols {}

def set (l : Line) (x : Nat) (cell : Cell) : Line := { l with cells := l.cells.set x cell }

def combiningAt (l : Line) (col : Nat) : List Char := (l.combining.lookup col).getD []

def pushMark (col : Nat) (mark : Char) : List (Nat × List Char) → List (Nat × List Char)
  | [] => [(col, [mark])]
  | (c, marks) :: rest =>
      if c = col then (c, marks ++ [mark]) :: rest else (c, marks) :: pushMark col mark rest

def pushCombining (l : Line) (col : Nat) (mark : Char) : Line :=
  { l with combining := pushMark col mark l.combining }

def combiningLen (l : Line) (col : Nat) : Nat := (l.combiningAt col).length

def clearCombining (l : Line) (col : Nat) : Line :=
  { l with combining := l.combining.filter (fun entry => entry.1 != col) }

def clearAllCombining (l : Line) : Line := { l with combining := [] }

/-- Clear the marks of the columns from `start` up to `stop`. -/
def clearCombiningRange (l : Line) (start stop : Nat) : Line where
  cells := l.cells
  combining := l.combining.filter
    (fun entry => decide (entry.1 < start) || decide (stop ≤ entry.1))

def resize (l : Line) (newLen : Nat) (value : Cell) : Line where
  cells := l.cells.take newLen ++ List.replicate (newLen - l.cells.length) value
  combining :=
    if newLen < l.cells.length then l.combining.filter (fun entry => decide (entry.1 < newLen))
    else l.combining

def remove (l : Line) (index : Nat) : Line where
  cells := l.cells.eraseIdx index
  combining := (l.combining.filter (fun entry => entry.1 != index)).map
    (fun entry => if index < entry.1 then (entry.1 - 1, entry.2) else entry)

def insert (l : Line) (index : Nat) (cell : Cell) : Line where
  cells := l.cells.insertIdx index cell
  combining := l.combining.map
    (fun entry => if index ≤ entry.1 then (min (entry.1 + 1) 65535, entry.2) else entry)

def push (l : Line) (cell : Cell) : Line := { l with cells := l.cells ++ [cell] }

def pop (l : Line) : Line where
  cells := l.cells.dropLast
  combining :=
    if l.cells.isEmpty then l.combining
    else l.combining.filter (fun entry => entry.1 != l.cells.length - 1)

def widthAt (l : Line) (x : Nat) : Nat := (l.cells.getD x {}).width

/-- `fix_wide_char_orphan_at_boundary`: blank the half of a wide character that a
cut at `newCols` would leave. -/
def fixWideCharOrphanAtBoundary (l : Line) (newCols : Nat) : Line :=
  if newCols = 0 ∨ l.cells.length ≤ newCols then l
  else
    let last := newCols - 1
    if l.widthAt last = 2 then l.set last {}
    else if 0 < last ∧ l.widthAt last = 0 then (l.set last {}).set (last - 1) {}
    else l

/-- `fixup_wide_char_at`: if the cell is half of a wide character, blank both
halves. -/
def fixupWideCharAt (l : Line) (cols x : Nat) : Line :=
  if l.widthAt x = 2 then (if x + 1 < cols then l.set (x + 1) {} else l).set x {}
  else if l.widthAt x = 0 ∧ 0 < x then (l.set (x - 1) {}).set x {}
  else l

/-- `set_cell_raw`: put a cell, with the continuation of a wide one. -/
def put (l : Line) (cols x : Nat) (cell : Cell) : Line :=
  let l := ((l.fixupWideCharAt cols x).set x cell).clearCombining x
  if cell.width = 2 ∧ x + 1 < cols then
    ((l.fixupWideCharAt cols (x + 1)).set (x + 1)
      { c := '\x00', styleId := cell.styleId, width := 0 }).clearCombining (x + 1)
  else l

/-- `erase_cells` on one line, for `start < stop ≤ cols`. -/
def erase (l : Line) (cols start stop : Nat) (blank : Cell) : Line :=
  let l := l.fixupWideCharAt cols start
  let l := if stop < cols then l.fixupWideCharAt cols stop else l
  let l := (List.range' start (stop - start)).foldl (fun l i => l.set i blank) l
  l.clearCombiningRange start stop

/-- One row of `erase_rows`. -/
def eraseAll (l : Line) (blank : Cell) : Line where
  cells := l.cells.map fun _ => blank

/-! How long a line is after each operation. -/

@[simp] theorem len_new (cols : Nat) : (new cols).len = cols := by
  simp [new, len]

@[simp] theorem len_set (l : Line) (x : Nat) (cell : Cell) : (l.set x cell).len = l.len := by
  simp [set, len]

@[simp] theorem len_clearCombining (l : Line) (x : Nat) : (l.clearCombining x).len = l.len := rfl

@[simp] theorem len_clearCombiningRange (l : Line) (x y : Nat) :
    (l.clearCombiningRange x y).len = l.len := rfl

@[simp] theorem len_pushCombining (l : Line) (x : Nat) (mark : Char) :
    (l.pushCombining x mark).len = l.len := rfl

@[simp] theorem len_resize (l : Line) (n : Nat) (cell : Cell) : (l.resize n cell).len = n := by
  simp [resize, len]
  omega

@[simp] theorem len_push (l : Line) (cell : Cell) : (l.push cell).len = l.len + 1 := by
  simp [push, len]

@[simp] theorem len_pop (l : Line) : l.pop.len = l.len - 1 := by
  simp [pop, len]

theorem len_remove (l : Line) {x : Nat} (hx : x < l.len) : (l.remove x).len = l.len - 1 := by
  simpa [remove, len] using List.length_eraseIdx_of_lt hx

theorem len_insert (l : Line) {x : Nat} (cell : Cell) (hx : x ≤ l.len) :
    (l.insert x cell).len = l.len + 1 := by
  simpa [insert, len] using List.length_insertIdx_of_le_length hx cell

@[simp] theorem len_fixupWideCharAt (l : Line) (cols x : Nat) :
    (l.fixupWideCharAt cols x).len = l.len := by
  unfold fixupWideCharAt
  split_ifs <;> simp

@[simp] theorem len_put (l : Line) (cols x : Nat) (cell : Cell) :
    (l.put cols x cell).len = l.len := by
  unfold put
  dsimp only
  split_ifs <;> simp

theorem len_foldl_set (l : Line) (xs : List Nat) (cell : Cell) :
    (xs.foldl (fun l i => l.set i cell) l).len = l.len := by
  induction xs generalizing l with
  | nil => rfl
  | cons x xs ih => simp [ih]

@[simp] theorem len_erase (l : Line) (cols start stop : Nat) (blank : Cell) :
    (l.erase cols start stop blank).len = l.len := by
  unfold erase
  dsimp only
  rw [len_clearCombiningRange, len_foldl_set]
  split_ifs <;> simp

@[simp] theorem len_eraseAll (l : Line) (blank : Cell) : (l.eraseAll blank).len = l.len := by
  simp [eraseAll, len]

theorem resize_own_width {l : Line} {cols : Nat} (h : l.len = cols) (cell : Cell) :
    (l.fixWideCharOrphanAtBoundary cols).resize cols cell = l := by
  have hlen : l.cells.length = cols := h
  have hfix : l.fixWideCharOrphanAtBoundary cols = l := by
    simp [fixWideCharOrphanAtBoundary, hlen]
  rw [hfix, resize]
  simp [← hlen]

end Line

/-! ### Rows -/

inductive WrapKind where
  | normal
  | wideEarly
deriving DecidableEq, Repr

structure WrapEdge where
  edgeId : Nat
  target : Nat
  kind : WrapKind
  paddingCount : Nat
  validWidth : Nat
deriving DecidableEq, Repr

structure Row extends Line where
  rowId : Option Nat := none
  contentRevision : Option Nat := some 0
  outgoing : Option WrapEdge := none
deriving DecidableEq, Repr

/-- `checked_add(1)` on 64 bits; exhaustion is sticky. -/
def nextU64 (n : Option Nat) : Option Nat :=
  n.bind fun n => if n + 1 < 2 ^ 64 then some (n + 1) else none

namespace Row

def ofCells (cells : List Cell) (id : Option Nat) : Row where
  cells
  rowId := id

def cut (row : Row) : Row := { row with outgoing := none }

def advanceRevision (row : Row) : Row :=
  { row with contentRevision := nextU64 row.contentRevision }

def withLine (row : Row) (f : Line → Line) : Row := { row with toLine := f row.toLine }

def get? (row : Row) (x : Nat) : Option Cell := row.cells[x]?

/-- `row[x] = cell`. -/
def set? (row : Row) (x : Nat) (cell : Cell) : Option Row :=
  if x < row.len then some (row.withLine (·.set x cell)) else none

def remove? (row : Row) (index : Nat) : Option Row :=
  if index < row.len then some (row.withLine (·.remove index)) else none

def insert? (row : Row) (index : Nat) (cell : Cell) : Option Row :=
  if index ≤ row.len then some (row.withLine (·.insert index cell)) else none

@[simp] theorem toLine_withLine (row : Row) (f : Line → Line) :
    (row.withLine f).toLine = f row.toLine := rfl

@[simp] theorem toLine_cut (row : Row) : row.cut.toLine = row.toLine := rfl

@[simp] theorem toLine_advanceRevision (row : Row) : row.advanceRevision.toLine = row.toLine := rfl

@[simp] theorem toLine_ofCells (cells : List Cell) (id : Option Nat) :
    (ofCells cells id).toLine = { cells } := rfl

end Row

end QuorumDispatch.Screen
