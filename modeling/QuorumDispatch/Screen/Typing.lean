import QuorumDispatch.Screen.LogicalText
import QuorumDispatch.Screen.AltScreen

/-!
Typing. Characters fill a row, a full row is left by the next character, and a wide
character that meets the margin leaves it early. Each time the row that is left gets an
edge to the row that is entered. The edges hold from then on: the stream writes only where
the last edge points to, and a new line starts on a row of its own.
-/

namespace QuorumDispatch.Screen

open Lib

set_option linter.dupNamespace false

/-! ### The grid that is typed into -/

/-- The id that is given out after `n` others. -/
def idAt (n : Nat) : Option Nat := if n < 2 ^ 64 then some n else none

theorem nextU64_idAt (n : Nat) : nextU64 (idAt n) = idAt (n + 1) := by
  unfold idAt nextU64
  by_cases h : n < 2 ^ 64
  · rw [if_pos h]
    rfl
  · rw [if_neg h, if_neg (by omega)]
    rfl

theorem idAt_of_lt {n : Nat} (h : n < 2 ^ 64) : idAt n = some n := if_pos h

def Row.EdgeOk (cols j : Nat) (row : Row) : Prop :=
  ∀ edge, row.outgoing = some edge → edge.target = j + 1 ∧ edge.validWidth = cols ∧
    (edge.kind = .normal ∧ edge.paddingCount = 0 ∨
      edge.kind = .wideEarly ∧ edge.paddingCount = 1 ∧ row.cells.getLast? = some {})

structure Row.Untouched (cols : Nat) (row : Row) : Prop where
  line : row.toLine = .new cols
  revision : row.contentRevision = some 0
  outgoing : row.outgoing = none

namespace Grid

def blanks (n : Nat) : List Cell := List.replicate n {}

/-- A grid that was only typed into, with the cursor on row `i`, counted from the first row
of the scrollback. -/
structure Typed (g : Grid) (i : Nat) : Prop where
  cursor : g.scrollbackLen + g.cursorY = i
  inside : g.cursorY < g.rows
  length : g.cells.length = g.scrollbackLen + g.rows
  rowId : ∀ (j : Nat) (row : Row), g.cells[j]? = some row → row.rowId = idAt j
  len : ∀ (j : Nat) (row : Row), g.cells[j]? = some row → row.len = g.cols
  nextRow : g.nextRowId = idAt g.cells.length
  nextEdge : ∃ n ≤ i, g.nextEdgeId = idAt n
  below : ∀ j row, i < j → g.cells[j]? = some row → row.Untouched g.cols
  edge : ∀ j row, j < i → g.cells[j]? = some row → row.EdgeOk g.cols j
  top : g.scrollTop = 0
  bottom : g.scrollBottom = g.rows - 1
  modes : g.modes = {}

/-- The row of the cursor: the cells that were typed, and blanks. If the row continues the
one before it, the stream is at their edge. -/
structure Writing (g : Grid) (i : Nat) (row : Row) (used : List Cell) : Prop where
  here : g.cells[i]? = some row
  cells : row.cells = used ++ blanks (g.cols - used.length)
  fits : used.length ≤ g.cols
  marks : row.combining = []
  outgoing : row.outgoing = none
  revision : ∃ r ≤ used.length, row.contentRevision = some r
  incoming : ∀ prev, 0 < i → g.cells[i - 1]? = some prev → prev.outgoing.isSome →
    g.sequentialEdge = some { source := i - 1, target := i }

theorem modify_eq_set {α : Type} {xs : List α} {i : Nat} {a : α} (h : xs[i]? = some a)
    (f : α → α) : xs.modify i f = xs.set i (f a) := by
  ext1 j
  rw [List.getElem?_modify, List.getElem?_set]
  split_ifs with hij hlt
  · subst hij
    rw [h]
    rfl
  · subst hij
    exact absurd (List.getElem?_eq_some_iff.mp h).1 hlt
  · simp

/-- What is found after an update: the new element, or an old one elsewhere. -/
theorem getElem?_set_cases {α : Type} {xs : List α} {i j : Nat} {a b c : α} (h : xs[i]? = some a)
    (hc : (xs.set i b)[j]? = some c) : (j = i ∧ c = b) ∨ (j ≠ i ∧ xs[j]? = some c) := by
  by_cases hj : j = i
  · subst hj
    rw [List.getElem?_set_self (List.getElem?_eq_some_iff.mp h).1] at hc
    exact .inl ⟨rfl, (Option.some.inj hc).symm⟩
  · rw [List.getElem?_set_ne (Ne.symm hj)] at hc
    exact .inr ⟨hj, hc⟩

theorem set_self {α : Type} {xs : List α} {i : Nat} {a : α} (h : xs[i]? = some a) :
    xs.set i a = xs := by
  obtain ⟨hi, rfl⟩ := List.getElem?_eq_some_iff.mp h
  exact List.set_getElem_self hi

variable {g : Grid} {i : Nat} {row : Row} {used : List Cell}

theorem Typed.visibleRow? (h : g.Typed i) (hrow : g.cells[i]? = some row) :
    g.visibleRow? g.cursorY = some row := by
  rw [Grid.visibleRow?, h.cursor]
  exact hrow

/-- The edge into the row of the cursor is the stream's own. -/
theorem Writing.cutIncoming (hw : g.Writing i row used) (ht : g.Typed i) (hi : i < 2 ^ 64) :
    g.cutIncoming i row.rowId true = g := by
  unfold Grid.cutIncoming
  split
  · rfl
  next prev hprev =>
    by_cases hpos : 0 < i
    · rw [if_pos hpos] at hprev
      have hrowId : row.rowId = some i := (ht.rowId i row hw.here).trans (idAt_of_lt hi)
      have hprevId : prev.rowId = some (i - 1) :=
        (ht.rowId (i - 1) prev hprev).trans (idAt_of_lt (by omega))
      dsimp only
      refine if_neg fun hcut => ?_
      cases hout : prev.outgoing with
      | none => simp [hout] at hcut
      | some edge =>
          have htarget := (ht.edge (i - 1) prev (by omega) hprev edge hout).1
          have hseq := hw.incoming prev hpos hprev (by simp [hout])
          have htarget' : edge.target = i := by omega
          simp [hout, hseq, hrowId, hprevId, htarget'] at hcut
    · rw [if_neg hpos] at hprev
      cases hprev

theorem Writing.beforeContentWrite? (hw : g.Writing i row used) (ht : g.Typed i) (hi : i < 2 ^ 64)
    (hroom : used.length < g.cols) : ∃ pendingWrap,
      g.beforeContentWrite? g.cursorY true false = some { g with
        cells := g.cells.set i row.advanceRevision
        pendingWrap } := by
  obtain ⟨r, hr, hrevision⟩ := hw.revision
  have hnext : (nextU64 row.contentRevision).isNone = false := by
    have hcols := g.size.cols_lt
    change used.length < g.size.cols at hroom
    rw [hrevision, nextU64]
    have hlt : r + 1 < 2 ^ 64 := by omega
    simp only [Option.bind_some, if_pos hlt]
    rfl
  have hsame : g.setOutgoing i none = g := by
    have hrow : ({ row with outgoing := none } : Row) = row := by
      rw [← hw.outgoing]
    rw [setOutgoing, modify_eq_set hw.here, hrow, set_self hw.here]
  refine ⟨g.refreshedPending row false, ?_⟩
  unfold Grid.beforeContentWrite?
  rw [if_neg (by have := ht.inside; omega)]
  dsimp only
  rw [ht.cursor, hw.here]
  dsimp only [Option.bind_eq_bind, Option.bind_some]
  rw [hsame, hw.cutIncoming ht hi, hnext, modify_eq_set hw.here]
  rfl

/-! ### A cell on blanks -/

def setRow (g : Grid) (i : Nat) (row : Row) : Grid := { g with cells := g.cells.set i row }

theorem getElem?_setRow (h : g.cells[i]? = some row) (row' : Row) :
    (g.setRow i row').cells[i]? = some row' :=
  List.getElem?_set_self (List.getElem?_eq_some_iff.mp h).1

theorem setRow_setRow (g : Grid) (i : Nat) (row row' : Row) :
    (g.setRow i row).setRow i row' = g.setRow i row' := by
  simp [setRow]

theorem setRow_self (h : g.cells[i]? = some row) : g.setRow i row = g := by
  rw [setRow, set_self h]

theorem modifyRow?_eq {y : Nat} (h : g.cells[g.scrollbackLen + y]? = some row)
    {f : Row → Option Row} {row' : Row} (hf : f row = some row') :
    g.modifyRow? y f = some (g.setRow (g.scrollbackLen + y) row') := by
  rw [modifyRow?, visibleRow?, h]
  dsimp only [Option.bind_eq_bind, Option.bind_some]
  rw [hf]
  rfl

theorem setAt?_eq {x y : Nat} (h : g.cells[g.scrollbackLen + y]? = some row) (hx : x < row.len)
    (cell : Cell) : g.setAt? x y cell =
      some (g.setRow (g.scrollbackLen + y) (row.withLine (·.set x cell))) :=
  modifyRow?_eq h (if_pos hx)

theorem clearCombining?_eq {y : Nat} (h : g.cells[g.scrollbackLen + y]? = some row)
    (hmarks : row.combining = []) (x : Nat) : g.clearCombining? x y = some g := by
  have hrow : some (row.withLine (·.clearCombining x)) = some row := by
    rw [Row.withLine, Line.clearCombining, hmarks, List.filter_nil, ← hmarks]
  rw [clearCombining?, modifyRow?_eq h hrow, setRow_self h]

theorem fixupWideCharAt?_blank {x y : Nat} (h : g.cells[g.scrollbackLen + y]? = some row)
    (hcell : row.cells[x]? = some {}) : g.fixupWideCharAt? x y = some g := by
  rw [fixupWideCharAt?, visibleRow?, h]
  dsimp only [Option.bind_eq_bind, Option.bind_some]
  rw [Row.get?, hcell]
  simp

theorem setCellRaw?_blank {x y : Nat} (h : g.cells[g.scrollbackLen + y]? = some row)
    (hmarks : row.combining = []) (hcell : row.cells[x]? = some {}) (cell : Cell) :
    g.setCellRaw? x y cell =
      (if cell.width = 2 ∧ x + 1 < g.cols then do
        let g ← (g.setRow (g.scrollbackLen + y) (row.withLine (·.set x cell))).fixupWideCharAt?
          (x + 1) y
        let g ← g.setAt? (x + 1) y { c := '\x00', styleId := cell.styleId, width := 0 }
        g.clearCombining? (x + 1) y
      else some (g.setRow (g.scrollbackLen + y) (row.withLine (·.set x cell)))) := by
  have hx : x < row.len := (List.getElem?_eq_some_iff.mp hcell).1
  have hset : (g.setRow (g.scrollbackLen + y) (row.withLine (·.set x cell))).cells[
      g.scrollbackLen + y]? = some (row.withLine (·.set x cell)) := getElem?_setRow h _
  rw [setCellRaw?, fixupWideCharAt?_blank h hcell]
  dsimp only [Option.bind_eq_bind, Option.bind_some]
  rw [setAt?_eq h hx]
  dsimp only [Option.bind_some]
  rw [clearCombining?_eq hset hmarks]
  rfl

theorem setCellRaw?_narrow {x y : Nat} (h : g.cells[g.scrollbackLen + y]? = some row)
    (hmarks : row.combining = []) (hcell : row.cells[x]? = some {}) {cell : Cell}
    (hwidth : cell.width = 1) : g.setCellRaw? x y cell =
      some (g.setRow (g.scrollbackLen + y) (row.withLine (·.set x cell))) := by
  rw [setCellRaw?_blank h hmarks hcell, if_neg (by simp [hwidth])]

theorem setCellRaw?_wide {x y : Nat} (h : g.cells[g.scrollbackLen + y]? = some row)
    (hmarks : row.combining = []) (hcell : row.cells[x]? = some {})
    (hnext : row.cells[x + 1]? = some {}) (hroom : x + 1 < g.cols) {cell : Cell}
    (hwidth : cell.width = 2) : g.setCellRaw? x y cell =
      some (g.setRow (g.scrollbackLen + y) (row.withLine fun line => (line.set x cell).set (x + 1)
        { c := '\x00', styleId := cell.styleId, width := 0 })) := by
  have hset : (g.setRow (g.scrollbackLen + y) (row.withLine (·.set x cell))).cells[
      g.scrollbackLen + y]? = some (row.withLine (·.set x cell)) := getElem?_setRow h _
  have hnext' : (row.withLine (·.set x cell)).cells[x + 1]? = some {} := by
    show (row.cells.set x cell)[x + 1]? = some {}
    rw [List.getElem?_set_ne (by omega)]
    exact hnext
  have hx : x + 1 < (row.withLine (·.set x cell)).len := (List.getElem?_eq_some_iff.mp hnext').1
  rw [setCellRaw?_blank h hmarks hcell, if_pos ⟨hwidth, hroom⟩, fixupWideCharAt?_blank hset hnext']
  dsimp only [Option.bind_eq_bind, Option.bind_some]
  rw [setAt?_eq hset hx]
  dsimp only [Option.bind_some]
  have hmarks' : ((row.withLine (·.set x cell)).withLine (·.set (x + 1)
      { c := '\x00', styleId := cell.styleId, width := 0 })).combining = [] := hmarks
  refine (clearCombining?_eq (getElem?_setRow hset _) hmarks' _).trans ?_
  exact congrArg some (setRow_setRow g _ _ _)

def charCells (c : Char) (width : Nat) : List Cell :=
  if width = 2 then [{ c, width := 2 }, { c := '\x00', width := 0 }] else [{ c, width := 1 }]

theorem length_charCells (c : Char) {width : Nat} (h : width = 1 ∨ width = 2) :
    (charCells c width).length = width := by
  rcases h with rfl | rfl <;> rfl

theorem set_append_blanks (used : List Cell) {n : Nat} (hn : 0 < n) (cell : Cell) :
    (used ++ blanks n).set used.length cell = (used ++ [cell]) ++ blanks (n - 1) := by
  obtain ⟨m, rfl⟩ : ∃ m, n = m + 1 := ⟨n - 1, by omega⟩
  simp [blanks, List.replicate_succ]

theorem getElem?_append_blanks (used : List Cell) {n k : Nat} (hk : k < n) :
    (used ++ blanks n)[used.length + k]? = some {} := by
  rw [List.getElem?_append_right (by omega), blanks, List.getElem?_replicate, if_pos (by omega)]

theorem Writing.setCell? (hw : g.Writing i row used) (ht : g.Typed i) (hi : i < 2 ^ 64) (c : Char)
    {width : Nat} (hwidth : width = 1 ∨ width = 2) (hroom : used.length + width ≤ g.cols) :
    ∃ row' pendingWrap, g.setCell? true used.length g.cursorY { c, width } =
        some { g.setRow i row' with pendingWrap } ∧
      row'.rowId = row.rowId ∧
      row'.cells = (used ++ charCells c width) ++
        blanks (g.cols - (used ++ charCells c width).length) ∧
      row'.combining = [] ∧ row'.outgoing = none ∧
      ∃ r ≤ (used ++ charCells c width).length, row'.contentRevision = some r := by
  obtain ⟨r, hr, hrevision⟩ := hw.revision
  obtain ⟨pendingWrap, hbefore⟩ := hw.beforeContentWrite? ht hi (by omega)
  have hlt : r + 1 < 2 ^ 64 := by
    have hcols := g.size.cols_lt
    change used.length + width ≤ g.size.cols at hroom
    omega
  have hrevision' : row.advanceRevision.contentRevision = some (r + 1) := by
    show nextU64 row.contentRevision = _
    rw [hrevision, nextU64, Option.bind_some, if_pos hlt]
  have hhere : ({ g with cells := g.cells.set i row.advanceRevision, pendingWrap } : Grid).cells[
      g.scrollbackLen + g.cursorY]? = some row.advanceRevision := by
    rw [ht.cursor]
    exact getElem?_setRow hw.here _
  have hcell : row.advanceRevision.cells[used.length]? = some {} := by
    show row.cells[used.length]? = some {}
    rw [hw.cells]
    exact getElem?_append_blanks used (k := 0) (by omega)
  have hinside : ¬(g.cursorY ≥ g.rows ∨ used.length ≥ g.cols) := by
    have := ht.inside
    omega
  rw [Grid.setCell?, if_neg hinside, hbefore]
  dsimp only [Option.bind_eq_bind, Option.bind_some]
  rcases hwidth with rfl | rfl
  · refine ⟨row.advanceRevision.withLine (·.set used.length { c, width := 1 }), pendingWrap, ?_,
      rfl, ?_, hw.marks, hw.outgoing, r + 1, ?_, hrevision'⟩
    · refine (setCellRaw?_narrow hhere hw.marks hcell rfl).trans (congrArg some ?_)
      simp [setRow, ht.cursor]
    · show row.cells.set used.length _ = _
      rw [hw.cells, set_append_blanks used (by omega)]
      simp [charCells, Nat.sub_sub]
    · simpa [charCells] using hr
  · have hnext : row.advanceRevision.cells[used.length + 1]? = some {} := by
      show row.cells[used.length + 1]? = some {}
      rw [hw.cells]
      exact getElem?_append_blanks used (by omega)
    refine ⟨row.advanceRevision.withLine fun line => (line.set used.length { c, width := 2 }).set
      (used.length + 1) { c := '\x00', width := 0 }, pendingWrap, ?_, rfl, ?_, hw.marks, hw.outgoing,
      r + 1, ?_, hrevision'⟩
    · refine (setCellRaw?_wide hhere hw.marks hcell hnext
        (show used.length + 1 < g.cols by omega) rfl).trans (congrArg some ?_)
      simp [setRow, ht.cursor]
    · show (row.cells.set used.length _).set (used.length + 1) _ = _
      have hset := set_append_blanks (used ++ [{ c, width := 2 }])
        (n := g.cols - used.length - 1) (by omega) { c := '\x00', width := 0 }
      rw [List.length_append, List.length_singleton] at hset
      rw [hw.cells, set_append_blanks used (by omega), hset]
      simp [charCells, Nat.sub_sub]
    · simp only [List.length_append, length_charCells c (.inr rfl)]
      omega

/-- Writing on the row of the cursor leaves the other rows as they are. -/
theorem Typed.setRow (ht : g.Typed i) (hrow : g.cells[i]? = some row) {row' : Row}
    (hid : row'.rowId = row.rowId) (hlen : row'.len = g.cols) : (g.setRow i row').Typed i := by
  have hget : ∀ {j : Nat} {other : Row}, (g.cells.set i row')[j]? = some other →
      (j = i ∧ other = row') ∨ (j ≠ i ∧ g.cells[j]? = some other) :=
    fun hother => getElem?_set_cases hrow hother
  refine ⟨ht.cursor, ht.inside, ?_, fun j other hother => ?_, fun j other hother => ?_, ?_,
    ht.nextEdge, fun j other hj hother => ?_, fun j other hj hother => ?_, ht.top, ht.bottom,
    ht.modes⟩
  · rw [Grid.setRow, List.length_set]
    exact ht.length
  · obtain ⟨rfl, rfl⟩ | ⟨-, hother⟩ := hget hother
    · exact hid.trans (ht.rowId j row hrow)
    · exact ht.rowId j other hother
  · obtain ⟨rfl, rfl⟩ | ⟨-, hother⟩ := hget hother
    · exact hlen
    · exact ht.len j other hother
  · rw [Grid.setRow, List.length_set]
    exact ht.nextRow
  · obtain ⟨rfl, -⟩ | ⟨-, hother⟩ := hget hother
    · exact absurd hj (Nat.lt_irrefl _)
    · exact ht.below j other hj hother
  · obtain ⟨rfl, -⟩ | ⟨-, hother⟩ := hget hother
    · exact absurd hj (Nat.lt_irrefl _)
    · exact ht.edge j other hj hother

theorem Typed.place (ht : g.Typed i) (cursorX : Nat) (wrapPending : Bool)
    (pendingWrap : Option PendingWrap) (sequentialEdge : Option SequentialEdge) :
    ({ g with cursorX, wrapPending, pendingWrap, sequentialEdge } : Grid).Typed i :=
  ⟨ht.cursor, ht.inside, ht.length, ht.rowId, ht.len, ht.nextRow, ht.nextEdge, ht.below, ht.edge,
    ht.top, ht.bottom, ht.modes⟩

/-- The cursor is at a column that is free, or on the last one with the wrap deferred. -/
def Column (g : Grid) (i : Nat) (row : Row) (x : Nat) : Prop :=
  x < g.cols ∧ g.cursorX = x ∧ g.wrapPending = false ∨
    x = g.cols ∧ g.cursorX = g.cols - 1 ∧ g.wrapPending = true ∧
      ∃ r, row.contentRevision = some r ∧ g.pendingWrap =
        some { source := i, sourceRevision := r, sourceWidth := g.cols, kind := .normal
               paddingCount := 0 }

theorem armQualifiedWrap?_eq (ht : g.Typed i) (hi : i < 2 ^ 64) (hrow : g.cells[i]? = some row)
    {r : Nat} (hr : row.contentRevision = some r) (kind : WrapKind) (paddingCount : Nat) :
    g.armQualifiedWrap? kind paddingCount = some { g with
      wrapPending := true
      pendingWrap :=
        some { source := i, sourceRevision := r, sourceWidth := g.cols, kind, paddingCount } } := by
  have hid : row.rowId = some i := (ht.rowId i row hrow).trans (idAt_of_lt hi)
  have hlen : min row.len 65535 = g.cols := by
    have hcols := g.size.cols_lt
    rw [ht.len i row hrow]
    exact Nat.min_eq_left (by change g.size.cols ≤ _; omega)
  rw [armQualifiedWrap?, ht.visibleRow? hrow]
  dsimp only [Option.bind_eq_bind, Option.bind_some]
  rw [hid, hr, hlen]

/-- With room in the scrollback, the boundary moves and a new row comes at the bottom. -/
theorem Typed.scrollUp? (ht : g.Typed i) (hroom : g.scrollbackLen < g.scrollbackLimit) :
    g.scrollUp? false {} = some { g with
      cells := g.cells ++ [Row.ofCells (blanks g.cols) g.nextRowId]
      scrollbackLen := g.scrollbackLen + 1
      nextRowId := nextU64 g.nextRowId
      captured := g.captured ++ (g.visibleRow? 0).toList.map Row.toLine } := by
  have hrows := g.size.rows_pos
  change 0 < g.rows at hrows
  have hvisible : g.visibleLen? = some g.rows := by
    rw [visibleLen?, if_pos (by rw [ht.length]; omega), ht.length, Nat.add_sub_cancel_left]
  have hkeep : g.captureTopRow (·.removeRowAt 0) = { g with
      scrollbackLen := g.scrollbackLen + 1
      captured := g.captured ++ (g.visibleRow? 0).toList.map Row.toLine } := by
    rw [captureTopRow]
    exact if_neg (by show ¬(g.scrollbackLen + 1 > g.scrollbackLimit); omega)
  have hguard : 1 ≤ g.rows := hrows
  have hbottom := ht.bottom
  rw [Grid.scrollUp?, hvisible]
  dsimp only [Option.bind_eq_bind, Option.bind_some]
  rw [if_pos ⟨rfl, ht.top, by omega⟩, hkeep]
  simp only [guard, if_pos hguard]
  refine if_pos ?_
  show g.scrollBottom ≥ g.rows - 1
  omega

/-! ### Edges -/

theorem Typed.findIdx? (ht : g.Typed i) {j : Nat} (hj : j < g.cells.length) (hlt : j < 2 ^ 64) :
    g.cells.findIdx? (fun row => row.rowId == some j) = some j := by
  refine List.findIdx?_eq_some_iff_getElem.mpr ⟨hj, ?_, fun k hk => ?_⟩
  · rw [ht.rowId j _ (List.getElem?_eq_getElem hj), idAt_of_lt hlt]
    exact beq_self_eq_true _
  · rw [ht.rowId k _ (List.getElem?_eq_getElem (hk.trans hj)), idAt_of_lt (hk.trans hlt)]
    simp only [beq_iff_eq, Option.some.injEq]
    omega

/-- The row that was left gets its edge. -/
theorem Typed.publishDeferredWrap? (ht : g.Typed (i + 1)) (hi : i + 1 < 2 ^ 64)
    (hedge : ∃ n ≤ i, g.nextEdgeId = idAt n) (r paddingCount : Nat) (kind : WrapKind) :
    ∃ edgeId, g.publishDeferredWrap? (some { source := i, sourceRevision := r
                                             sourceWidth := g.cols, kind, paddingCount }) =
      some { g.setOutgoing i (some { edgeId, target := i + 1, kind, paddingCount
                                     validWidth := g.cols }) with
        nextEdgeId := nextU64 g.nextEdgeId
        sequentialEdge := some { source := i, target := i + 1 } } ∧
      ∃ n ≤ i + 1, nextU64 g.nextEdgeId = idAt n := by
  obtain ⟨n, hn, hnextEdge⟩ := hedge
  have hlt : i + 1 < g.cells.length := by
    have := ht.cursor
    have := ht.inside
    have := ht.length
    omega
  have hsource : g.cells[i]? = some g.cells[i] := List.getElem?_eq_getElem (by omega)
  have htarget : g.cells[i + 1]? = some g.cells[i + 1] := List.getElem?_eq_getElem hlt
  have hwrap : g.wrapEdge? { source := i, sourceRevision := r, sourceWidth := g.cols, kind
                             paddingCount } (i + 1) =
      some (i, { edgeId := n, target := i + 1, kind, paddingCount, validWidth := g.cols }) := by
    have hlens : g.cells[i].len = g.cols ∧ g.cells[i + 1].len = g.cols :=
      ⟨ht.len i _ hsource, ht.len (i + 1) _ htarget⟩
    simp only [wrapEdge?, ht.findIdx? (show i < g.cells.length by omega) (by omega),
      ht.findIdx? hlt hi, hnextEdge, idAt_of_lt (show n < 2 ^ 64 by omega),
      Option.bind_eq_bind, Option.bind_some]
    rw [hsource, htarget]
    simp [hlens]
  refine ⟨n, ?_, n + 1, by omega, ?_⟩
  · rw [Grid.publishDeferredWrap?]
    dsimp only
    rw [ht.visibleRow? htarget]
    dsimp only [Option.bind_eq_bind, Option.bind_some]
    rw [ht.rowId (i + 1) _ htarget, idAt_of_lt hi]
    dsimp only
    rw [hwrap]
  · rw [hnextEdge, nextU64_idAt]

theorem Typed.takeQualifiedWrap? (ht : g.Typed i) (hi : i < 2 ^ 64) (hrow : g.cells[i]? = some row)
    {pending : PendingWrap} (hpending : g.pendingWrap = some pending)
    (hsource : pending.source = i) (hrevision : row.contentRevision = some pending.sourceRevision)
    (hwidth : pending.sourceWidth = g.cols)
    (hkind : pending.kind = .normal ∧ pending.paddingCount = 0 ∨
      pending.kind = .wideEarly ∧ pending.paddingCount = 1) :
    g.takeQualifiedWrap? = some (some pending, { g with pendingWrap := none }) := by
  have hid : row.rowId = some pending.source := by
    rw [hsource]
    exact (ht.rowId i row hrow).trans (idAt_of_lt hi)
  have hlen : row.len = pending.sourceWidth := (ht.len i row hrow).trans hwidth.symm
  rw [Grid.takeQualifiedWrap?, hpending]
  dsimp only
  rw [ht.visibleRow? hrow]
  dsimp only [Option.bind_eq_bind, Option.bind_some]
  rcases hkind with ⟨hkind, hpadding⟩ | ⟨hkind, hpadding⟩ <;>
    simp [hkind, hpadding, hid, hrevision, hlen, hwidth]

theorem Typed.setOutgoing (ht : g.Typed (i + 1)) (hrow : g.cells[i]? = some row) {edge : WrapEdge}
    (hedge : ({ row with outgoing := some edge } : Row).EdgeOk g.cols i) {nextEdgeId : Option Nat}
    (hnext : ∃ n ≤ i + 1, nextEdgeId = idAt n) (sequentialEdge : Option SequentialEdge) :
    ({ g.setOutgoing i (some edge) with nextEdgeId, sequentialEdge } : Grid).Typed (i + 1) := by
  have hcells : g.cells.modify i (fun row => { row with outgoing := some edge }) =
      g.cells.set i { row with outgoing := some edge } := modify_eq_set hrow _
  have hget : ∀ {j : Nat} {other : Row},
      (g.cells.modify i fun row => { row with outgoing := some edge })[j]? = some other →
      (j = i ∧ other = { row with outgoing := some edge }) ∨
        (j ≠ i ∧ g.cells[j]? = some other) := by
    intro j other hother
    rw [hcells] at hother
    exact getElem?_set_cases hrow hother
  have hlength : (g.cells.modify i fun row => { row with outgoing := some edge }).length =
      g.cells.length := List.length_modify ..
  refine ⟨ht.cursor, ht.inside, hlength.trans ht.length, fun j other hother => ?_,
    fun j other hother => ?_, ?_, hnext, fun j other hj hother => ?_, fun j other hj hother => ?_,
    ht.top, ht.bottom, ht.modes⟩
  · obtain ⟨rfl, rfl⟩ | ⟨-, hother⟩ := hget hother
    · exact ht.rowId j row hrow
    · exact ht.rowId j other hother
  · obtain ⟨rfl, rfl⟩ | ⟨-, hother⟩ := hget hother
    · exact ht.len j row hrow
    · exact ht.len j other hother
  · exact ht.nextRow.trans (congrArg idAt hlength.symm)
  · obtain ⟨rfl, -⟩ | ⟨-, hother⟩ := hget hother
    · exact absurd hj (by omega)
    · exact ht.below j other hj hother
  · obtain ⟨rfl, rfl⟩ | ⟨-, hother⟩ := hget hother
    · exact hedge
    · exact ht.edge j other hj hother

end Grid

/-! ### Printing -/

namespace Terminal

variable {t : Terminal} {i : Nat} {row : Row} {used : List Cell}

theorem withGrid?_eq {f : Grid → Option Grid} {g : Grid} (h : f t.grid = some g) :
    t.withGrid? f = some { t with grid := g } := by
  rw [withGrid?, h]
  rfl

theorem internWithGc?_default (t : Terminal) : t.internWithGc? {} = some (0, t) := rfl

theorem blankCell?_default (h : t.state.currentStyle = {}) : t.blankCell? = some ({}, t) := by
  rw [blankCell?, h]
  rfl

structure TypingAt (t : Terminal) (i : Nat) (row : Row) (used : List Cell) : Prop where
  typed : t.grid.Typed i
  writing : t.grid.Writing i row used
  column : t.grid.Column i row used.length
  pen : t.state.currentStyle = {}
  main : t.state.inAltScreen = false

structure SameAbove (i : Nat) (t t' : Terminal) : Prop where
  take : t'.grid.cells.take i = t.grid.cells.take i
  size : t'.grid.size = t.grid.size
  limit : t'.grid.scrollbackLimit = t.grid.scrollbackLimit

/-- The end of `print`: the cursor behind the character, or on the last column with the wrap
deferred. -/
def advance? (t : Terminal) (width : Nat) : Option Terminal :=
  let newX := (t.grid.cursorX + width) % 65536
  if newX ≥ t.grid.cols then
    let t := t.withGrid fun g => { g with cursorX := g.cols - 1 }
    if t.grid.modes.autowrapMode then t.withGrid? (·.armQualifiedWrap? .normal 0) else some t
  else some (t.withGrid fun g => { g with cursorX := newX })

theorem advance?_typed (ht : t.grid.Typed i) (hi : i < 2 ^ 64) (hrow : t.grid.cells[i]? = some row)
    {r : Nat} (hr : row.contentRevision = some r) (hpending : t.grid.wrapPending = false)
    {width : Nat} (hx : t.grid.cursorX + width ≤ t.grid.cols) :
    ∃ cursorX wrapPending pendingWrap, t.advance? width =
        some (t.withGrid fun g => { g with cursorX, wrapPending, pendingWrap }) ∧
      ({ t.grid with cursorX, wrapPending, pendingWrap } : Grid).Column i row
        (t.grid.cursorX + width) := by
  have hcols := t.grid.size.cols_lt
  change t.grid.cols < 65536 at hcols
  have hauto : t.grid.modes.autowrapMode = true := by rw [ht.modes]
  have hmod : (t.grid.cursorX + width) % 65536 = t.grid.cursorX + width :=
    Nat.mod_eq_of_lt (by omega)
  rw [advance?, hmod]
  dsimp only
  by_cases hfull : t.grid.cursorX + width = t.grid.cols
  · rw [if_pos (by omega), if_pos (by exact hauto)]
    refine ⟨t.grid.cols - 1, true, some { source := i, sourceRevision := r
                                          sourceWidth := t.grid.cols, kind := .normal
                                          paddingCount := 0 }, ?_, .inr ⟨hfull, rfl, rfl, r, hr, rfl⟩⟩
    have htyped := ht.place (t.grid.cols - 1) t.grid.wrapPending t.grid.pendingWrap
      t.grid.sequentialEdge
    have harm := Grid.armQualifiedWrap?_eq htyped hi hrow hr .normal 0
    exact withGrid?_eq harm
  · rw [if_neg (by omega)]
    refine ⟨t.grid.cursorX + width, t.grid.wrapPending, t.grid.pendingWrap, rfl, .inl ?_⟩
    exact ⟨by show t.grid.cursorX + width < t.grid.cols; omega, rfl, hpending⟩

theorem putChar?_fits (h : t.TypingAt i row used) (hi : i < 2 ^ 64) (c : Char) {width : Nat}
    (hwidth : width = 1 ∨ width = 2) (hroom : used.length + width ≤ t.grid.cols) :
    ∃ t' row', t.putChar? c width = some t' ∧
      t'.TypingAt i row' (used ++ Grid.charCells c width) ∧ SameAbove i t t' := by
  obtain ⟨ht, hw, hcolumn, hpen, hmain⟩ := h
  have hcols := t.grid.size.cols_lt
  change t.grid.cols < 65536 at hcols
  have hinside := ht.inside
  obtain ⟨hx, hcursor, hpending⟩ | ⟨hx, -⟩ := hcolumn
  swap
  · omega
  obtain ⟨row', pendingWrap, hset, hid, hcells, hmarks, hout, r, hr, hrevision⟩ :=
    hw.setCell? ht hi c hwidth hroom
  have hlen : (used ++ Grid.charCells c width).length = used.length + width := by
    rw [List.length_append, Grid.length_charCells c hwidth]
  have hrowLen : row'.len = t.grid.cols := by
    rw [Line.len, hcells, List.length_append, Grid.blanks, List.length_replicate, hlen]
    omega
  have htyped : (t.grid.setRow i row').Typed i := ht.setRow hw.here hid hrowLen
  have hhere : (t.grid.setRow i row').cells[i]? = some row' := Grid.getElem?_setRow hw.here _
  have hincoming : ∀ prev, 0 < i → (t.grid.setRow i row').cells[i - 1]? = some prev →
      prev.outgoing.isSome → t.grid.sequentialEdge = some { source := i - 1, target := i } := by
    intro prev hpos hprev
    refine hw.incoming prev hpos ?_
    rwa [Grid.setRow, List.getElem?_set_ne (by omega)] at hprev
  have hsame : (t.grid.setRow i row').cells.take i = t.grid.cells.take i := by
    rw [Grid.setRow, List.take_set, List.set_eq_of_length_le (List.length_take_le ..)]
  have hcell : ({ c, styleId := 0, width := width % 256 } : Cell) = { c, width } := by
    rw [Nat.mod_eq_of_lt (by omega)]
  rw [putChar?]
  dsimp only
  rw [if_pos ⟨by omega, hinside⟩, hpen, internWithGc?_default]
  dsimp only [Option.bind_eq_bind, Option.bind_some]
  rw [hcell, hcursor, withGrid?, hset]
  dsimp only [Option.bind_eq_bind, Option.bind_some]
  obtain ⟨cursorX, wrapPending, pendingWrap', hadvance, hcolumn⟩ :=
    advance?_typed (t := { t with grid := { t.grid.setRow i row' with pendingWrap } })
      (htyped.place _ _ _ _) hi hhere hrevision hpending
      (show t.grid.cursorX + width ≤ t.grid.cols by omega)
  refine ⟨_, row', hadvance, ⟨htyped.place _ _ _ _, ⟨hhere, hcells, ?_, hmarks, hout,
    ⟨r, hr, hrevision⟩, hincoming⟩, ?_, hpen, hmain⟩, hsame, rfl, rfl⟩
  · rw [hlen]
    exact hroom
  · rw [hlen, ← hcursor]
    exact hcolumn

/-! ### Leaving a row -/

structure KeepsColumn (g g' : Grid) : Prop where
  size : g'.size = g.size
  limit : g'.scrollbackLimit = g.scrollbackLimit
  cursorX : g'.cursorX = g.cursorX
  wrapPending : g'.wrapPending = g.wrapPending
  nextEdgeId : g'.nextEdgeId = g.nextEdgeId

/-- Down to the next row, a new one at the bottom. -/
theorem lineFeed?_typed (ht : t.grid.Typed i) (hpen : t.state.currentStyle = {})
    (hmain : t.state.inAltScreen = false) (hrow : t.grid.cells[i]? = some row)
    (hout : row.outgoing = none) (hroom : i + 1 < t.grid.scrollbackLimit + t.grid.rows) :
    ∃ g', t.lineFeed? = some { t with grid := g' } ∧ g'.Typed (i + 1) ∧ KeepsColumn t.grid g' ∧
      g'.cells.take (i + 1) = t.grid.cells.take (i + 1) ∧
      ∃ row', g'.cells[i + 1]? = some row' ∧ row'.Untouched t.grid.cols := by
  have ht' := ht
  obtain ⟨hcursor, hinside, hlength, hrowId, hlen, hnextRow, ⟨n, hn, hnextEdge⟩, hbelow, hedge,
    htop, hbottom, hmodes⟩ := ht
  have hedge' : ∀ (j : Nat) (other : Row), j < i + 1 → t.grid.cells[j]? = some other →
      other.EdgeOk t.grid.cols j := by
    intro j other hj hother
    obtain hlt | rfl := Nat.lt_succ_iff_lt_or_eq.mp hj
    · exact hedge j other hlt hother
    · cases hrow.symm.trans hother
      intro edge hedge
      simp [hout] at hedge
  by_cases hlast : t.grid.cursorY = t.grid.scrollBottom
  · -- the bottom: a row goes to the scrollback and a new one comes
    have hlimit : 0 < t.grid.scrollbackLimit := by omega
    have hscroll : t.lineFeed? = some (t.withGrid fun g => { g with
        cells := g.cells ++ [Row.ofCells (Grid.blanks g.cols) g.nextRowId]
        scrollbackLen := g.scrollbackLen + 1
        nextRowId := nextU64 g.nextRowId
        captured := g.captured ++ (g.visibleRow? 0).toList.map Row.toLine }) := by
      rw [lineFeed?, if_pos hlast, scrollUp?, blankCell?_default hpen]
      dsimp only [Option.bind_eq_bind, Option.bind_some]
      rw [hmain]
      exact withGrid?_eq (ht'.scrollUp? (by omega))
    have hget : ∀ {j : Nat} {other : Row},
        (t.grid.cells ++ [Row.ofCells (Grid.blanks t.grid.cols) t.grid.nextRowId])[j]? =
          some other → t.grid.cells[j]? = some other ∨ (j = i + 1 ∧
            other = Row.ofCells (Grid.blanks t.grid.cols) t.grid.nextRowId) := by
      intro j other hother
      by_cases hj : j < t.grid.cells.length
      · rw [List.getElem?_append_left hj] at hother
        exact .inl hother
      · have hjlt := (List.getElem?_eq_some_iff.mp hother).1
        rw [List.length_append, List.length_singleton] at hjlt
        obtain rfl : j = t.grid.cells.length := by omega
        rw [List.getElem?_concat_length] at hother
        exact .inr ⟨by omega, (Option.some.inj hother).symm⟩
    have hnew : (Row.ofCells (Grid.blanks t.grid.cols) t.grid.nextRowId).Untouched t.grid.cols :=
      ⟨rfl, rfl, rfl⟩
    refine ⟨_, hscroll, ⟨?_, hinside, ?_, fun j other hother => ?_,
      fun j other hother => ?_, ?_, ⟨n, by omega, hnextEdge⟩, fun j other hj hother => ?_,
      fun j other hj hother => ?_, htop, hbottom, hmodes⟩, ⟨rfl, rfl, rfl, rfl, rfl⟩, ?_, _, ?_,
      hnew⟩
    · show t.grid.scrollbackLen + 1 + t.grid.cursorY = i + 1
      omega
    · show (t.grid.cells ++ _).length = t.grid.scrollbackLen + 1 + t.grid.rows
      rw [List.length_append, List.length_singleton]
      omega
    · obtain hother | ⟨rfl, rfl⟩ := hget hother
      · exact hrowId j other hother
      · show t.grid.nextRowId = _
        rw [hnextRow]
        congr 1
        omega
    · obtain hother | ⟨-, rfl⟩ := hget hother
      · exact hlen j other hother
      · exact List.length_replicate
    · show nextU64 t.grid.nextRowId = idAt (t.grid.cells ++ _).length
      rw [hnextRow, nextU64_idAt, List.length_append, List.length_singleton]
    · obtain hother | ⟨-, rfl⟩ := hget hother
      · exact hbelow j other (by omega) hother
      · exact hnew
    · obtain hother | ⟨rfl, -⟩ := hget hother
      · exact hedge' j other hj hother
      · exact absurd hj (Nat.lt_irrefl _)
    · exact List.take_append_of_le_length (by omega)
    · rw [List.getElem?_append_right (by omega), show i + 1 - t.grid.cells.length = 0 by omega]
      rfl
  · have hdown : t.lineFeed? = some (t.withGrid fun g => { g with
        cells := g.cells, scrollbackLen := g.scrollbackLen, cursorY := g.cursorY + 1
        nextRowId := g.nextRowId, captured := g.captured }) := by
      rw [lineFeed?, if_neg hlast, if_pos (by omega)]
    have hnext : i + 1 < t.grid.cells.length := by omega
    refine ⟨_, hdown, ⟨?_, ?_, hlength, hrowId, hlen, hnextRow,
      ⟨n, by omega, hnextEdge⟩, fun j other hj hother => hbelow j other (by omega) hother, hedge',
      htop, hbottom, hmodes⟩, ⟨rfl, rfl, rfl, rfl, rfl⟩, rfl, _, List.getElem?_eq_getElem hnext, ?_⟩
    · show t.grid.scrollbackLen + (t.grid.cursorY + 1) = i + 1
      omega
    · show t.grid.cursorY + 1 < t.grid.rows
      omega
    · exact hbelow (i + 1) _ (Nat.lt_succ_self i) (List.getElem?_eq_getElem hnext)

def atStart (g : Grid) : Grid :=
  { g with cursorX := 0, wrapPending := false, pendingWrap := none, sequentialEdge := none }

theorem performDeferredWrap?_eq {pending : PendingWrap} {g g' : Grid}
    (htake : t.grid.takeQualifiedWrap? = some (some pending, { t.grid with pendingWrap := none }))
    (hfeed : lineFeed? { t with grid := atStart t.grid } = some { t with grid := g })
    (hpublish : g.publishDeferredWrap? (some pending) = some g') :
    t.performDeferredWrap? = some { t with grid := g' } := by
  rw [performDeferredWrap?, htake]
  refine (congrArg (Option.bind · _) hfeed).trans ?_
  dsimp only [Option.bind_some]
  rw [withGrid?, hpublish]
  rfl

theorem performDeferredWrap?_typed (ht : t.grid.Typed i) (hpen : t.state.currentStyle = {})
    (hmain : t.state.inAltScreen = false) (hrow : t.grid.cells[i]? = some row)
    (hout : row.outgoing = none) {r paddingCount : Nat} {kind : WrapKind}
    (hr : row.contentRevision = some r)
    (hpending : t.grid.pendingWrap = some { source := i, sourceRevision := r
                                            sourceWidth := t.grid.cols, kind, paddingCount })
    (hkind : kind = .normal ∧ paddingCount = 0 ∨
      kind = .wideEarly ∧ paddingCount = 1 ∧ row.cells.getLast? = some {})
    (hi : i + 1 < 2 ^ 64) (hroom : i + 1 < t.grid.scrollbackLimit + t.grid.rows) :
    ∃ t' row' edge, t.performDeferredWrap? = some t' ∧ t'.TypingAt (i + 1) row' [] ∧
      t'.grid.cells.take (i + 1) = t.grid.cells.take i ++ [{ row with outgoing := some edge }] ∧
      edge.kind = kind ∧ edge.paddingCount = paddingCount ∧ t'.grid.size = t.grid.size ∧
      t'.grid.scrollbackLimit = t.grid.scrollbackLimit := by
  have htake := ht.takeQualifiedWrap? (by omega) hrow hpending rfl hr rfl
    (hkind.imp id fun h => ⟨h.1, h.2.1⟩)
  obtain ⟨g, hfeed, htyped, hkeeps, hsame, row', hrow', hnew⟩ :=
    lineFeed?_typed (t := { t with grid := atStart t.grid }) (ht.place 0 false none none)
      hpen hmain hrow hout hroom
  have hcols : g.cols = t.grid.cols := congrArg TerminalSize.cols hkeeps.size
  have hlt : i < t.grid.cells.length := (List.getElem?_eq_some_iff.mp hrow).1
  have hsource : g.cells[i]? = some row := by
    have hsame' := congrArg (·[i]?) hsame
    simp only [List.getElem?_take, if_pos (Nat.lt_succ_self i)] at hsame'
    exact hsame'.trans hrow
  have hedges : ∃ n ≤ i, g.nextEdgeId = idAt n := hkeeps.nextEdgeId ▸ ht.nextEdge
  obtain ⟨edgeId, hpublish, hnext⟩ := htyped.publishDeferredWrap? hi hedges r paddingCount kind
  obtain ⟨edge, hedge⟩ : ∃ edge : WrapEdge, edge =
      { edgeId, target := i + 1, kind, paddingCount, validWidth := g.cols } := ⟨_, rfl⟩
  rw [← hedge, hcols] at hpublish
  have hedgeOk : ({ row with outgoing := some edge } : Row).EdgeOk g.cols i := by
    rw [hedge]
    rintro edge ⟨⟩
    exact ⟨rfl, rfl, hkind⟩
  have hcells : g.cells.modify i (fun row => { row with outgoing := some edge }) =
      g.cells.set i { row with outgoing := some edge } := Grid.modify_eq_set hsource _
  refine ⟨_, row', edge, performDeferredWrap?_eq htake hfeed hpublish,
    ⟨htyped.setOutgoing hsource hedgeOk hnext _, ⟨?_, ?_, Nat.zero_le _, ?_, hnew.outgoing,
      ⟨0, le_rfl, hnew.revision⟩, fun _ _ _ _ => rfl⟩,
      .inl ⟨g.size.cols_pos, hkeeps.cursorX, hkeeps.wrapPending⟩, hpen, hmain⟩, ?_, ?_, ?_,
      hkeeps.size, hkeeps.limit⟩
  · show (g.cells.modify i _)[i + 1]? = some row'
    rw [hcells, List.getElem?_set_ne (by omega)]
    exact hrow'
  · show row'.cells = [] ++ Grid.blanks (g.cols - 0)
    rw [hcols]
    exact congrArg Line.cells hnew.line
  · exact congrArg Line.combining hnew.line
  · show (g.cells.modify i _).take (i + 1) = _
    have hlast : (t.grid.cells.take i).length = i := List.length_take_of_le (by omega)
    have htake : g.cells.take (i + 1) = t.grid.cells.take i ++ [row] := by
      rw [hsame]
      show t.grid.cells.take (i + 1) = _
      rw [List.take_add_one, hrow, Option.toList_some]
    rw [hcells, List.take_set, htake, List.set_append_right _ _ (by omega), hlast, Nat.sub_self]
    rfl
  · rw [hedge]
  · rw [hedge]

/-! ### A character -/

theorem cellsText_append (cells cells' : List Cell) :
    Row.cellsText (cells ++ cells') = Row.cellsText cells ++ Row.cellsText cells' := by
  simp [Row.cellsText]

theorem cellsText_charCells (c : Char) {width : Nat} (h : width = 1 ∨ width = 2) :
    Row.cellsText (Grid.charCells c width) = [c] := by
  rcases h with rfl | rfl <;> rfl

theorem cellsText_blanks (n : Nat) : Row.cellsText (Grid.blanks n) = List.replicate n ' ' := by
  simp [Row.cellsText, Grid.blanks]

theorem earlyPadding_some {edge : WrapEdge} (h : row.outgoing = some edge) :
    row.earlyPadding = if edge.kind = .wideEarly then edge.paddingCount else 0 := by
  rw [Row.earlyPadding, h]
  by_cases hkind : edge.kind = .wideEarly <;> simp [Option.filter, hkind]

theorem text_eq_of_blanks {n : Nat} (hcells : row.cells = used ++ Grid.blanks n)
    (hpadding : row.earlyPadding ≤ n) :
    row.text = Row.cellsText used ++ List.replicate (n - row.earlyPadding) ' ' := by
  have htake : row.cells.take (row.len - row.earlyPadding) =
      used ++ Grid.blanks (n - row.earlyPadding) := by
    rw [Line.len, hcells, List.length_append, Grid.blanks, List.length_replicate,
      Nat.add_sub_assoc hpadding, List.take_length_add_append, List.take_replicate]
    rw [Nat.min_eq_left (Nat.sub_le ..), Grid.blanks]
  rw [Row.text, htake, cellsText_append, cellsText_blanks]

/-- `print` of a character that takes columns. -/
def place? (t : Terminal) (c : Char) (width : Nat) : Option Terminal := do
  let t ← if t.grid.wrapPending ∧ t.grid.modes.autowrapMode then t.performDeferredWrap?
    else some t
  match ← t.wideAtMargin? width with
  | none => some t
  | some t => t.putChar? c width

theorem print?_eq {charWidth : Char → Nat} (hmodes : t.grid.modes = {}) (c : Char)
    (hwidth : charWidth c ≠ 0) : t.print? charWidth c =
      (t.withState fun s => { s with lastPrintedChar := c }).place? c (charWidth c) := by
  have hchar : t.grid.modes.mapCharset c = c := by
    rw [hmodes]
    rfl
  rw [print?]
  dsimp only
  rw [show (t.withState fun s => { s with lastPrintedChar := c }).grid.modes.mapCharset c = c
    from hchar, if_neg hwidth]
  rfl

theorem wideAtMargin?_fits {width : Nat} (h : ¬(width = 2 ∧ t.grid.cursorX ≥ t.grid.cols - 1)) :
    t.wideAtMargin? width = some (some t) := if_neg h

theorem TypingAt.place?_fits (h : t.TypingAt i row used) (hi : i < 2 ^ 64) (c : Char) {width : Nat}
    (hwidth : width = 1 ∨ width = 2) (hroom : used.length + width ≤ t.grid.cols) :
    ∃ t' row', t.place? c width = some t' ∧
      t'.TypingAt i row' (used ++ Grid.charCells c width) ∧ SameAbove i t t' := by
  obtain ⟨t', row', hput, htyping, hsame⟩ := putChar?_fits h hi c hwidth hroom
  refine ⟨t', row', ?_, htyping, hsame⟩
  have hcolumn := h.column
  obtain ⟨hx, hcursor, hpending⟩ | ⟨hx, -⟩ := hcolumn
  swap
  · omega
  rw [place?, if_neg (by simp [hpending])]
  dsimp only [Option.bind_eq_bind, Option.bind_some]
  rw [wideAtMargin?_fits (by omega)]
  exact hput

structure Wrapped (i : Nat) (used : List Cell) (t t' : Terminal) : Prop where
  left : ∃ left : Row, t'.grid.cells.take (i + 1) = t.grid.cells.take i ++ [left] ∧
    left.outgoing.isSome ∧ left.text = Row.cellsText used
  size : t'.grid.size = t.grid.size
  limit : t'.grid.scrollbackLimit = t.grid.scrollbackLimit

theorem TypingAt.performDeferredWrap?_full (h : t.TypingAt i row used) (hi : i + 1 < 2 ^ 64)
    (hroom : i + 1 < t.grid.scrollbackLimit + t.grid.rows) (hfull : used.length = t.grid.cols) :
    ∃ t' row', t.performDeferredWrap? = some t' ∧ t'.TypingAt (i + 1) row' [] ∧
      Wrapped i used t t' := by
  obtain ⟨ht, hw, hcolumn, hpen, hmain⟩ := h
  obtain ⟨hx, -⟩ | ⟨-, -, -, r, hr, hpending⟩ := hcolumn
  · omega
  obtain ⟨t', row', edge, hwrap, htyping, htake, hkind, -, hsize, hlimit⟩ :=
    performDeferredWrap?_typed ht hpen hmain hw.here hw.outgoing hr hpending (.inl ⟨rfl, rfl⟩) hi
      hroom
  refine ⟨t', row', hwrap, htyping, ⟨_, htake, rfl, ?_⟩, hsize, hlimit⟩
  have hcells : ({ row with outgoing := some edge } : Row).cells = used ++ Grid.blanks 0 := by
    rw [hw.cells, hfull, Nat.sub_self]
  have hpadding : ({ row with outgoing := some edge } : Row).earlyPadding = 0 := by
    rw [earlyPadding_some rfl, if_neg (by simp [hkind])]
  rw [text_eq_of_blanks hcells (by omega), Nat.zero_sub]
  exact List.append_nil _

theorem TypingAt.padMargin? (h : t.TypingAt i row used) (hi : i < 2 ^ 64)
    (hfree : used.length + 1 = t.grid.cols) :
    ∃ g row' r, (t.grid.setWideEarlyPadding? t.grid.cursorX t.grid.cursorY {}).bind
        (·.armQualifiedWrap? .wideEarly 1) = some g ∧
      g.Typed i ∧ g.cells = t.grid.cells.set i row' ∧ row'.cells = used ++ Grid.blanks 1 ∧
      row'.outgoing = none ∧ row'.contentRevision = some r ∧
      g.pendingWrap = some { source := i, sourceRevision := r, sourceWidth := t.grid.cols
                             kind := .wideEarly, paddingCount := 1 } ∧
      g.size = t.grid.size ∧ g.scrollbackLimit = t.grid.scrollbackLimit := by
  obtain ⟨ht, hw, hcolumn, -, -⟩ := h
  obtain ⟨hx, hcursor, -⟩ | ⟨hx, -⟩ := hcolumn
  swap
  · omega
  obtain ⟨r, hr, hrevision⟩ := hw.revision
  have hcols := t.grid.size.cols_lt
  change t.grid.cols < 65536 at hcols
  have hrevision' : row.advanceRevision.contentRevision = some (r + 1) := by
    show nextU64 row.contentRevision = _
    rw [hrevision, nextU64, Option.bind_some, if_pos (by omega)]
  obtain ⟨pendingWrap, hbefore⟩ := hw.beforeContentWrite? ht hi hx
  have hcells : row.cells.set used.length {} = used ++ Grid.blanks 1 := by
    rw [hw.cells, Grid.set_append_blanks used (by omega), List.append_assoc,
      show t.grid.cols - used.length - 1 = 0 by omega]
    rfl
  have hlen : (row.advanceRevision.withLine (·.set used.length {})).len = t.grid.cols := by
    show (row.cells.set used.length {}).length = _
    rw [hcells, List.length_append]
    exact hfree
  have hhere : ({ t.grid with cells := t.grid.cells.set i row.advanceRevision, pendingWrap } :
      Grid).cells[t.grid.scrollbackLen + t.grid.cursorY]? = some row.advanceRevision := by
    rw [ht.cursor]
    exact Grid.getElem?_setRow hw.here _
  have hwide : used.length < row.advanceRevision.len := by
    show used.length < row.len
    rw [ht.len i row hw.here]
    exact hx
  have hpad : t.grid.setWideEarlyPadding? t.grid.cursorX t.grid.cursorY {} =
      some { t.grid.setRow i (row.advanceRevision.withLine (·.set used.length {})) with
        pendingWrap } := by
    have hinside := ht.inside
    rw [Grid.setWideEarlyPadding?, if_neg (by omega), hbefore, hcursor]
    refine (Grid.setAt?_eq hhere hwide {}).trans (congrArg some ?_)
    simp [Grid.setRow, ht.cursor]
  have htyped : (t.grid.setRow i (row.advanceRevision.withLine (·.set used.length {}))).Typed i :=
    ht.setRow hw.here rfl hlen
  have harm := Grid.armQualifiedWrap?_eq (htyped.place t.grid.cursorX t.grid.wrapPending pendingWrap
    t.grid.sequentialEdge) hi (Grid.getElem?_setRow hw.here _) hrevision' .wideEarly 1
  rw [hpad]
  exact ⟨_, _, r + 1, harm, htyped.place _ _ _ _, rfl, hcells, hw.outgoing, hrevision', rfl, rfl, rfl⟩

theorem TypingAt.wideAtMargin?_early (h : t.TypingAt i row used) (hi : i + 1 < 2 ^ 64)
    (hroom : i + 1 < t.grid.scrollbackLimit + t.grid.rows) (hfree : used.length + 1 = t.grid.cols)
    (hcols : 2 ≤ t.grid.cols) :
    ∃ t' row', t.wideAtMargin? 2 = some (some t') ∧ t'.TypingAt (i + 1) row' [] ∧
      Wrapped i used t t' := by
  obtain ⟨g, row', r, hpad, htyped, hcells, hrow', hout, hr, hpending, hsize, hlimit⟩ :=
    h.padMargin? (by omega) hfree
  obtain ⟨g₀, hset, harm⟩ := Option.bind_eq_some_iff.mp hpad
  have hcursor : t.grid.cursorX = used.length := by
    obtain ⟨-, hcursor, -⟩ | ⟨hx, -⟩ := h.column
    · exact hcursor
    · omega
  have hsizes : g.cols = t.grid.cols ∧ g.rows = t.grid.rows :=
    ⟨congrArg TerminalSize.cols hsize, congrArg TerminalSize.rows hsize⟩
  have hhere : g.cells[i]? = some row' := by
    rw [hcells]
    exact List.getElem?_set_self (List.getElem?_eq_some_iff.mp h.writing.here).1
  obtain ⟨t', next, edge, hwrap, htyping, htake, hkind, hpadding, hsize', hlimit'⟩ :=
    performDeferredWrap?_typed (t := { t with grid := g }) htyped h.pen h.main hhere hout hr
      (by rw [hpending, hsizes.1]) (.inr ⟨rfl, rfl, by simp [hrow', Grid.blanks]⟩) hi
      (by
        show i + 1 < g.scrollbackLimit + g.rows
        rw [hlimit, hsizes.2]
        exact hroom)
  refine ⟨t', next, ?_, htyping, ⟨{ row' with outgoing := some edge }, ?_, rfl, ?_⟩,
    hsize'.trans hsize, hlimit'.trans hlimit⟩
  · have hinside := h.typed.inside
    rw [wideAtMargin?, if_pos ⟨rfl, by omega⟩, if_pos (by rw [h.typed.modes]), if_neg (by omega),
      if_pos ⟨by omega, hinside⟩, blankCell?_default h.pen]
    dsimp only [Option.bind_eq_bind, Option.bind_some]
    rw [withGrid?_eq hset]
    dsimp only [Option.bind_some]
    rw [withGrid?_eq (t := { t with grid := g₀ }) harm]
    dsimp only [Option.bind_some]
    rw [hwrap]
    rfl
  · rw [htake]
    show g.cells.take i ++ _ = _
    rw [hcells, List.take_set, List.set_eq_of_length_le (List.length_take_le ..)]
  · have hedge : ({ row' with outgoing := some edge } : Row).earlyPadding = 1 := by
      rw [earlyPadding_some rfl, if_pos hkind, hpadding]
    have hcells' : ({ row' with outgoing := some edge } : Row).cells = used ++ Grid.blanks 1 := hrow'
    rw [text_eq_of_blanks hcells' (by omega), hedge]
    exact List.append_nil _

theorem Wrapped.trans {t₁ t' : Terminal} (h : Wrapped i used t t₁) (h' : SameAbove (i + 1) t₁ t') :
    Wrapped i used t t' := by
  obtain ⟨⟨left, htake, hleft⟩, hsize, hlimit⟩ := h
  exact ⟨⟨left, h'.take.trans htake, hleft⟩, h'.size.trans hsize, h'.limit.trans hlimit⟩

theorem TypingAt.place?_wraps (h : t.TypingAt i row used) (hi : i + 1 < 2 ^ 64)
    (hroom : i + 1 < t.grid.scrollbackLimit + t.grid.rows) (hcols : 2 ≤ t.grid.cols) (c : Char)
    {width : Nat} (hwidth : width = 1 ∨ width = 2) (hover : t.grid.cols < used.length + width) :
    ∃ t' row', t.place? c width = some t' ∧ t'.TypingAt (i + 1) row' (Grid.charCells c width) ∧
      Wrapped i used t t' := by
  have hmodes := h.typed.modes
  have hfits := h.writing.fits
  -- the character is put at the start of the row that is entered
  have hput : ∀ {t₁ : Terminal} {row₁ : Row}, t₁.TypingAt (i + 1) row₁ [] → Wrapped i used t t₁ →
      ∃ t' row', t₁.putChar? c width = some t' ∧
        t'.TypingAt (i + 1) row' (Grid.charCells c width) ∧ Wrapped i used t t' := by
    intro t₁ row₁ htyping hwrapped
    have hcols₁ : t₁.grid.cols = t.grid.cols := congrArg TerminalSize.cols hwrapped.size
    obtain ⟨t', row', hput, htyping', hsame⟩ := putChar?_fits htyping hi c hwidth
      (by simp only [List.length_nil]; omega)
    exact ⟨t', row', hput, htyping', hwrapped.trans hsame⟩
  by_cases hfull : used.length = t.grid.cols
  · obtain ⟨t₁, row₁, hwrap, htyping, hwrapped⟩ := h.performDeferredWrap?_full hi hroom hfull
    obtain ⟨t', row', hput, htyping', hwrapped'⟩ := hput htyping hwrapped
    refine ⟨t', row', ?_, htyping', hwrapped'⟩
    have hpending : t.grid.wrapPending = true := by
      obtain ⟨hx, -⟩ | ⟨-, -, hpending, -⟩ := h.column
      · omega
      · exact hpending
    have hcols₁ : t₁.grid.cols = t.grid.cols := congrArg TerminalSize.cols hwrapped.size
    have hstart : t₁.grid.cursorX = 0 := by
      obtain ⟨-, hcursor, -⟩ | ⟨hx, -⟩ := htyping.column
      · exact hcursor
      · rw [List.length_nil] at hx
        omega
    rw [place?, if_pos ⟨hpending, by rw [hmodes]⟩, hwrap]
    dsimp only [Option.bind_eq_bind, Option.bind_some]
    rw [wideAtMargin?_fits (by omega)]
    exact hput
  · obtain rfl : width = 2 := by omega
    obtain ⟨t₁, row₁, hmargin, htyping, hwrapped⟩ := h.wideAtMargin?_early hi hroom (by omega) hcols
    obtain ⟨t', row', hput, htyping', hwrapped'⟩ := hput htyping hwrapped
    refine ⟨t', row', ?_, htyping', hwrapped'⟩
    have hpending : t.grid.wrapPending = false := by
      obtain ⟨-, -, hpending⟩ | ⟨hx, -⟩ := h.column
      · exact hpending
      · omega
    rw [place?, if_neg (by simp [hpending])]
    dsimp only [Option.bind_eq_bind, Option.bind_some]
    rw [hmargin]
    exact hput

/-! ### A new line -/

/-- Carriage return and line feed, with no edge. -/
theorem TypingAt.newline? (h : t.TypingAt i row used)
    (hroom : i + 1 < t.grid.scrollbackLimit + t.grid.rows) :
    ∃ t' row', (t.execute? 0x0D).bind (·.execute? 0x0A) = some t' ∧ t'.TypingAt (i + 1) row' [] ∧
      t'.grid.cells.take (i + 1) = t.grid.cells.take i ++ [row] ∧
      t'.grid.size = t.grid.size ∧ t'.grid.scrollbackLimit = t.grid.scrollbackLimit := by
  obtain ⟨ht, hw, -, hpen, hmain⟩ := h
  obtain ⟨g, hfeed, htyped, hkeeps, hsame, row', hrow', hnew⟩ :=
    lineFeed?_typed (t := { t with grid := atStart t.grid }) (ht.place 0 false none none)
      hpen hmain hw.here hw.outgoing hroom
  have hcols : g.cols = t.grid.cols := congrArg TerminalSize.cols hkeeps.size
  have htake : g.cells.take (i + 1) = t.grid.cells.take i ++ [row] := by
    rw [hsame]
    show t.grid.cells.take (i + 1) = _
    rw [List.take_add_one, hw.here, Option.toList_some]
  refine ⟨_, row', hfeed, ⟨htyped, ⟨hrow', ?_, Nat.zero_le _, ?_, hnew.outgoing,
    ⟨0, le_rfl, hnew.revision⟩, fun prev _ hprev hsome => ?_⟩,
    .inl ⟨g.size.cols_pos, hkeeps.cursorX, hkeeps.wrapPending⟩, hpen, hmain⟩, htake, hkeeps.size,
    hkeeps.limit⟩
  · show row'.cells = [] ++ Grid.blanks (g.cols - 0)
    rw [hcols]
    exact congrArg Line.cells hnew.line
  · exact congrArg Line.combining hnew.line
  · -- the row above was left without an edge
    have hprev' : g.cells[i]? = some row := by
      have hsame' := congrArg (·[i]?) hsame
      simp only [List.getElem?_take, if_pos (Nat.lt_succ_self i)] at hsame'
      exact hsame'.trans hw.here
    cases hprev'.symm.trans hprev
    simp [hw.outgoing] at hsome

end Terminal

end QuorumDispatch.Screen
