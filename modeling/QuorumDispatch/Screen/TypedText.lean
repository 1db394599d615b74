import QuorumDispatch.Screen.Typing

/-!
A text that is typed into a fresh screen. The rows that its lines were wrapped to join to the
lines again, whatever the width was.
-/

namespace QuorumDispatch.Screen

open Lib

set_option linter.dupNamespace false

/-! ### The text -/

def typeLine (line : List Char) : List Event := line.map fun c => .callback (.print c)

def newline : List Event := [.callback (.execute 0x0D), .callback (.execute 0x0A)]

def typeText : List (List Char) → List Event
  | [] => []
  | line :: lines => typeLine line ++ lines.flatMap fun line => newline ++ typeLine line

/-- The row and the column behind a line, with one more character. -/
def layChar (cols : Nat) (place : Nat × Nat) (width : Nat) : Nat × Nat :=
  if cols < place.2 + width then (place.1 + 1, width) else (place.1, place.2 + width)

def layLine (charWidth : Char → Nat) (cols : Nat) (place : Nat × Nat) (line : List Char) :
    Nat × Nat :=
  line.foldl (fun place c => layChar cols place (charWidth c)) place

def wrappedRows (charWidth : Char → Nat) (cols : Nat) (line : List Char) : Nat :=
  (layLine charWidth cols (0, 0) line).1 + 1

def textRows (charWidth : Char → Nat) (cols : Nat) (lines : List (List Char)) : Nat :=
  (lines.map (wrappedRows charWidth cols)).sum

variable {charWidth : Char → Nat} {cols : Nat}

theorem layChar_add (n : Nat) (place : Nat × Nat) (width : Nat) :
    layChar cols (n + place.1, place.2) width =
      (n + (layChar cols place width).1, (layChar cols place width).2) := by
  unfold layChar
  split_ifs <;> simp [Nat.add_assoc]

/-- Lower down, a line is wrapped in the same way. -/
theorem layLine_add (n : Nat) (place : Nat × Nat) (line : List Char) :
    layLine charWidth cols (n + place.1, place.2) line =
      (n + (layLine charWidth cols place line).1, (layLine charWidth cols place line).2) := by
  induction line generalizing place with
  | nil => rfl
  | cons c line ih =>
      rw [layLine, List.foldl_cons, layChar_add]
      exact ih (layChar cols place (charWidth c))

theorem le_layLine (place : Nat × Nat) (line : List Char) :
    place.1 ≤ (layLine charWidth cols place line).1 := by
  induction line generalizing place with
  | nil => exact le_rfl
  | cons c line ih =>
      refine le_trans ?_ (ih (layChar cols place (charWidth c)))
      unfold layChar
      split_ifs
      · exact Nat.le_succ _
      · exact le_rfl

/-- The row where a line ends that starts on row `n`. -/
theorem layLine_start (n : Nat) (line : List Char) :
    (layLine charWidth cols (n, 0) line).1 + 1 = n + wrappedRows charWidth cols line := by
  have h : layLine charWidth cols (n, 0) line = (n + (layLine charWidth cols (0, 0) line).1, _) :=
    layLine_add n (0, 0) line
  rw [h, wrappedRows, Nat.add_assoc]

/-! ### The rows of a text -/

namespace Terminal

/-- A terminal into which lines were typed, with one more not ended. The rows above join to
the lines and to the first part of the last. -/
structure TypedText (size : TerminalSize) (limit : Nat) (place : Nat × Nat)
    (lines : List (List Char)) (line : List Char) (t : Terminal) : Prop where
  size : t.grid.size = size
  limit : t.grid.scrollbackLimit = limit
  typing : ∃ row used, t.TypingAt place.1 row used ∧ used.length = place.2 ∧
    ∃ joined rest, (t.grid.cells.take place.1).foldl Grid.joinRow ([], []) = (joined, rest) ∧
      joined.map trimEnd = lines.map trimEnd ∧ rest ++ Row.cellsText used = line

variable {size : TerminalSize} {limit : Nat} {place : Nat × Nat} {lines : List (List Char)}
  {line : List Char} {t : Terminal}

theorem TypedText.print? (h : t.TypedText size limit place lines line) {c : Char}
    (hwidth : charWidth c = 1 ∨ charWidth c = 2) (hcols : 2 ≤ size.cols)
    (hroom : (layChar size.cols place (charWidth c)).1 < limit + size.rows)
    (hids : (layChar size.cols place (charWidth c)).1 < 2 ^ 64) :
    Returns (t.print? charWidth c)
      (TypedText size limit (layChar size.cols place (charWidth c)) lines (line ++ [c])) := by
  obtain ⟨rfl, rfl, row, used, htyping, hused, joined, rest, hjoined, hlines, rfl⟩ := h
  rw [print?_eq htyping.typed.modes c (by omega)]
  have htyping' : (t.withState fun s => { s with lastPrintedChar := c }).TypingAt place.1 row used :=
    ⟨htyping.typed, htyping.writing, htyping.column, htyping.pen, htyping.main⟩
  unfold layChar at hroom hids ⊢
  split_ifs at hroom hids ⊢ with hover
  · obtain ⟨t', row', hplace, htyping', ⟨left, htake, hout, htext⟩, hsize, hlimit⟩ :=
      htyping'.place?_wraps hids hroom hcols c hwidth (by rw [hused]; exact hover)
    refine ⟨t', hplace, hsize, hlimit, row', _, htyping', Grid.length_charCells c hwidth, joined,
      rest ++ Row.cellsText used, ?_, hlines, ?_⟩
    · have htake' : t'.grid.cells.take (place.1 + 1) = t.grid.cells.take place.1 ++ [left] := htake
      rw [htake', List.foldl_append, hjoined, List.foldl_cons, List.foldl_nil, Grid.joinRow]
      dsimp only
      rw [if_pos hout, htext]
    · rw [cellsText_charCells c hwidth]
  · obtain ⟨t', row', hplace, htyping', htake, hsize, hlimit⟩ :=
      htyping'.place?_fits hids c hwidth (by rw [hused]; exact Nat.not_lt.mp hover)
    refine ⟨t', hplace, hsize, hlimit, row', _, htyping', ?_, joined, rest, ?_, hlines, ?_⟩
    · rw [List.length_append, Grid.length_charCells c hwidth, hused]
    · rw [htake]
      exact hjoined
    · rw [cellsText_append, cellsText_charCells c hwidth, List.append_assoc]

/-- A line that was left without an edge ends there, up to spaces. -/
theorem joinRow_ended {row : Row} {used : List Cell} (h : t.TypingAt place.1 row used)
    (joined : List (List Char)) (rest : List Char) :
    ∃ n, Grid.joinRow (joined, rest) row =
      (joined ++ [rest ++ Row.cellsText used ++ List.replicate n ' '], []) := by
  have hpadding : row.earlyPadding = 0 := by
    rw [Row.earlyPadding, h.writing.outgoing]
    rfl
  refine ⟨t.grid.cols - used.length, ?_⟩
  rw [Grid.joinRow, h.writing.outgoing]
  dsimp only [Option.isSome_none]
  rw [if_neg (by simp), text_eq_of_blanks h.writing.cells (by omega), hpadding, Nat.sub_zero,
    List.append_assoc]

theorem TypedText.newline (h : t.TypedText size limit place lines line)
    (hroom : place.1 + 1 < limit + size.rows) :
    Returns (t.run? charWidth newline) (TypedText size limit (place.1 + 1, 0) (lines ++ [line]) []) := by
  obtain ⟨rfl, rfl, row, used, htyping, hused, joined, rest, hjoined, hlines, rfl⟩ := h
  obtain ⟨t', row', hnewline, htyping', htake, hsize, hlimit⟩ := htyping.newline? hroom
  have hrun : t.run? charWidth Screen.newline = some t' := by
    obtain ⟨t₁, hcr, hlf⟩ := Option.bind_eq_some_iff.mp hnewline
    rw [Screen.newline, run?, List.foldlM_cons]
    refine Option.bind_eq_some_iff.mpr ⟨t₁, hcr, ?_⟩
    rw [List.foldlM_cons]
    exact Option.bind_eq_some_iff.mpr ⟨t', hlf, rfl⟩
  obtain ⟨n, hended⟩ := joinRow_ended htyping joined rest
  refine ⟨t', hrun, hsize, hlimit, row', [], htyping', rfl,
    joined ++ [rest ++ Row.cellsText used ++ List.replicate n ' '], [], ?_, ?_, rfl⟩
  · rw [htake, List.foldl_append, hjoined, List.foldl_cons, List.foldl_nil, hended]
  · rw [List.map_append, List.map_append, hlines, List.map_singleton, List.map_singleton,
      trimEnd_append_spaces]

theorem TypedText.typeLine (h : t.TypedText size limit place lines line) {more : List Char}
    (hwidth : ∀ c ∈ more, charWidth c = 1 ∨ charWidth c = 2) (hcols : 2 ≤ size.cols)
    (hroom : (layLine charWidth size.cols place more).1 < limit + size.rows)
    (hids : (layLine charWidth size.cols place more).1 < 2 ^ 64) :
    Returns (t.run? charWidth (typeLine more))
      (TypedText size limit (layLine charWidth size.cols place more) lines (line ++ more)) := by
  induction more generalizing t place line with
  | nil =>
      rw [List.append_nil]
      exact .pure h
  | cons c more ih =>
      have hle : (layChar size.cols place (charWidth c)).1 ≤
          (layLine charWidth size.cols place (c :: more)).1 :=
        le_layLine (layChar size.cols place (charWidth c)) more
      have hc := h.print? (hwidth c List.mem_cons_self) hcols (by omega) (by omega)
      refine .bind hc fun t' ht' => ?_
      have hmore := ih ht' (fun c hc => hwidth c (List.mem_cons_of_mem _ hc)) hroom hids
      rw [List.append_assoc] at hmore
      exact hmore

theorem TypedText.typeText (h : t.TypedText size limit place lines line) {more : List (List Char)}
    (hwidth : ∀ line ∈ more, ∀ c ∈ line, charWidth c = 1 ∨ charWidth c = 2) (hcols : 2 ≤ size.cols)
    (hroom : place.1 + textRows charWidth size.cols more < limit + size.rows)
    (hids : place.1 + textRows charWidth size.cols more < 2 ^ 64) :
    Returns (t.run? charWidth (more.flatMap fun line => Screen.newline ++ Screen.typeLine line))
      fun t' => ∃ place' init last, t'.TypedText size limit place' init last ∧
        init ++ [last] = lines ++ [line] ++ more ∧ place'.1 < 2 ^ 64 := by
  induction more generalizing t place lines line with
  | nil => exact .pure ⟨place, lines, line, h, by simp, by omega⟩
  | cons next more ih =>
      have hrows : textRows charWidth size.cols (next :: more) =
          wrappedRows charWidth size.cols next + textRows charWidth size.cols more := by
        simp [textRows]
      have hend : (layLine charWidth size.cols (place.1 + 1, 0) next).1 + 1 =
          place.1 + 1 + wrappedRows charWidth size.cols next := layLine_start _ next
      have hstart : place.1 + 1 ≤ (layLine charWidth size.cols (place.1 + 1, 0) next).1 :=
        le_layLine (place.1 + 1, 0) next
      have hnext : Returns (t.run? charWidth (Screen.newline ++ Screen.typeLine next))
          (TypedText size limit (layLine charWidth size.cols (place.1 + 1, 0) next)
            (lines ++ [line]) next) := by
        rw [run?, List.foldlM_append]
        refine .bind (h.newline (by omega)) fun t₁ ht₁ => ?_
        exact ht₁.typeLine (hwidth next List.mem_cons_self) hcols (by omega) (by omega)
      rw [List.flatMap_cons, run?, List.foldlM_append]
      refine .bind hnext fun t₂ ht₂ => ?_
      have hmore := ih ht₂ (fun line hmem => hwidth line (List.mem_cons_of_mem _ hmem)) (by omega)
        (by omega)
      refine hmore.mono fun t' ⟨place', init, last, htyped, hlines, hids⟩ => ?_
      exact ⟨place', init, last, htyped, by simp [hlines], hids⟩

/-! ### A fresh terminal -/

theorem newRows_next (cols k n : Nat) : (Grid.newRows cols (idAt k) n).2 = idAt (k + n) := by
  induction n generalizing k with
  | zero => rfl
  | succ n ih =>
      rw [Grid.newRows, nextU64_idAt]
      dsimp only
      rw [ih, Nat.add_right_comm, Nat.add_assoc]

theorem length_newRows (cols : Nat) (start : Option Nat) (n : Nat) :
    (Grid.newRows cols start n).1.length = n := by
  simpa using congrArg List.length (Grid.newRows_lines cols start n)

theorem getElem?_newRows {cols k n j : Nat} {row : Row}
    (h : (Grid.newRows cols (idAt k) n).1[j]? = some row) :
    row = { Line.new cols with rowId := idAt (k + j) } := by
  induction n generalizing k j with
  | zero => simp [Grid.newRows] at h
  | succ n ih =>
      rw [Grid.newRows, nextU64_idAt] at h
      cases j with
      | zero => exact (Option.some.inj h).symm
      | succ j =>
          rw [ih h, Nat.add_right_comm, Nat.add_assoc]

theorem typingAt_new (cols rows : UInt16) (limit : Nat) (logicalShadow : Bool) :
    ∃ row, ({ grid := .new cols rows limit logicalShadow } : Terminal).TypingAt 0 row [] := by
  obtain ⟨g, hg⟩ : ∃ g, g = Grid.new cols rows limit logicalShadow := ⟨_, rfl⟩
  have hpos : 0 < g.rows := g.size.rows_pos
  have hcells : g.cells = (Grid.newRows g.cols (idAt 0) g.rows).1 := by
    rw [hg]
    rfl
  have hrow : ∀ {j : Nat} {row : Row}, g.cells[j]? = some row →
      row = { Line.new g.cols with rowId := idAt j } := by
    intro j row hrow
    rw [hcells] at hrow
    simpa using getElem?_newRows hrow
  have hlength : g.cells.length = g.rows := by
    rw [hcells]
    exact length_newRows ..
  have hnew : ∀ {j : Nat} {row : Row}, g.cells[j]? = some row → row.Untouched g.cols := by
    intro j row hj
    rw [hrow hj]
    exact ⟨rfl, rfl, rfl⟩
  have hzero : g.scrollbackLen = 0 ∧ g.cursorY = 0 := by
    rw [hg]
    exact ⟨rfl, rfl⟩
  have htyped : g.Typed 0 := by
    refine ⟨by omega, by omega, by omega, fun j row hj => ?_, fun j row hj => ?_, ?_, ?_,
      fun j row _ hj => hnew hj, fun j row hj => absurd hj (Nat.not_lt_zero j), ?_, ?_, ?_⟩
    · rw [hrow hj]
    · exact (congrArg Line.len (hnew hj).line).trans List.length_replicate
    · rw [hlength, ← Nat.zero_add g.rows, ← newRows_next g.cols, hg]
      rfl
    · rw [hg]
      exact ⟨0, le_rfl, rfl⟩
    all_goals
      rw [hg]
      rfl
  have hhere : g.cells[0]? = some (g.cells.get ⟨0, by omega⟩) := List.getElem?_eq_getElem _
  have hfirst := hnew hhere
  rw [← hg]
  refine ⟨_, htyped, ⟨hhere, congrArg Line.cells hfirst.line, Nat.zero_le _,
    congrArg Line.combining hfirst.line, hfirst.outgoing, ⟨0, le_rfl, hfirst.revision⟩,
    fun _ hpos => absurd hpos (Nat.lt_irrefl 0)⟩, .inl ⟨g.size.cols_pos, ?_⟩, rfl, rfl⟩
  show g.cursorX = 0 ∧ g.wrapPending = false
  rw [hg]
  exact ⟨rfl, rfl⟩

theorem typedText_new (cols rows : UInt16) (limit : Nat) (logicalShadow : Bool) :
    ({ grid := .new cols rows limit logicalShadow } : Terminal).TypedText
      (sanitizeDimensions cols rows) limit (0, 0) [] [] := by
  obtain ⟨row, htyping⟩ := typingAt_new cols rows limit logicalShadow
  exact ⟨rfl, rfl, row, [], htyping, rfl, [], [], rfl, rfl, rfl⟩

/-! ### The emission -/

theorem validatedOutgoingBetween_edgeOk {g : Grid} {i j : Nat} {row next : Row} (h : g.Typed i)
    (hj : g.cells[j]? = some row) (hnext : g.cells[j + 1]? = some next) (hlt : j + 1 < 2 ^ 64)
    (hedge : row.EdgeOk g.cols j) : Grid.validatedOutgoingBetween row next = row.outgoing := by
  have hrowId : row.rowId = some j := (h.rowId j row hj).trans (idAt_of_lt (by omega))
  have hnextId : next.rowId = some (j + 1) := (h.rowId (j + 1) next hnext).trans (idAt_of_lt hlt)
  have hlens : row.len = g.cols ∧ next.len = g.cols := ⟨h.len j row hj, h.len (j + 1) next hnext⟩
  rw [Grid.validatedOutgoingBetween]
  cases hout : row.outgoing with
  | none => rfl
  | some edge =>
      obtain ⟨htarget, hwidth, hkind⟩ := hedge edge hout
      have hshape : Grid.edgeShapeValid row next edge = true := by
        rw [Grid.edgeShapeValid]
        rcases hkind with ⟨hkind, hpadding⟩ | ⟨hkind, hpadding, hlast⟩
        · simp [hkind, hpadding, hlens, hwidth, hnextId, htarget]
        · obtain ⟨init, hcells⟩ : ∃ init, row.cells = init ++ [({} : Cell)] :=
            ⟨_, (List.dropLast_append_getLast? _ hlast).symm⟩
          have hpos : 1 ≤ g.cols := g.size.cols_pos
          simp [hkind, hpadding, hpos, hcells, hlens, hwidth, hnextId, htarget]
      simp [hrowId, hnextId, htarget, hshape]

theorem TypingAt.linked {i : Nat} {row : Row} {used : List Cell} (h : t.TypingAt i row used)
    (hi : i < 2 ^ 64) : Grid.Linked t.grid.cells := by
  have hout : ∀ (j : Nat) (other : Row), i ≤ j → t.grid.cells[j]? = some other →
      other.outgoing = none := by
    intro j other hj hother
    obtain rfl | hlt := Nat.eq_or_lt_of_le hj
    · cases h.writing.here.symm.trans hother
      exact h.writing.outgoing
    · exact (h.typed.below j other hlt hother).outgoing
  refine Grid.linked_of_getElem (fun j source target hsource htarget => ?_) fun last hlast => ?_
  · by_cases hj : j < i
    · exact validatedOutgoingBetween_edgeOk h.typed hsource htarget (by omega)
        (h.typed.edge j source hj hsource)
    · rw [Grid.validatedOutgoingBetween, hout j source (by omega) hsource]
      rfl
  · have hlt := (List.getElem?_eq_some_iff.mp h.writing.here).1
    rw [List.getLast?_eq_getElem?] at hlast
    exact hout _ last (by omega) hlast

theorem foldl_joinRow_untouched {rows : List Row} {cols : Nat}
    (h : ∀ row ∈ rows, row.Untouched cols) (lines : List (List Char)) :
    ∃ blank, rows.foldl Grid.joinRow (lines, []) = (lines ++ blank, []) ∧
      ∀ line ∈ blank, ∀ c ∈ line, c = ' ' := by
  induction rows generalizing lines with
  | nil => exact ⟨[], by simp, by simp⟩
  | cons row rows ih =>
      have hrow := h row List.mem_cons_self
      have hcells : row.cells = [] ++ Grid.blanks cols := congrArg Line.cells hrow.line
      have hpadding : row.earlyPadding = 0 := by
        rw [Row.earlyPadding, hrow.outgoing]
        rfl
      have htext : row.text = List.replicate cols ' ' := by
        rw [text_eq_of_blanks hcells (by omega), hpadding, Nat.sub_zero]
        rfl
      have hjoin : Grid.joinRow (lines, []) row = (lines ++ [List.replicate cols ' '], []) := by
        rw [Grid.joinRow, hrow.outgoing, htext]
        rfl
      obtain ⟨blank, hblank, hspaces⟩ :=
        ih (fun row hmem => h row (List.mem_cons_of_mem _ hmem)) (lines ++ [List.replicate cols ' '])
      refine ⟨List.replicate cols ' ' :: blank, ?_, ?_⟩
      · rw [List.foldl_cons, hjoin, hblank, List.append_assoc]
        rfl
      · intro line hline
        obtain rfl | hmem := List.mem_cons.mp hline
        · exact fun c hc => List.eq_of_mem_replicate hc
        · exact hspaces line hmem

theorem TypedText.trimText_logicalEmission (h : t.TypedText size limit place lines line)
    (hids : place.1 < 2 ^ 64) (surface : LogicalEmissionSurface) :
    trimText (joinedLines (t.grid.logicalEmission surface t.state.inAltScreen)) =
      trimText (lines ++ [line]) := by
  obtain ⟨-, -, row, used, htyping, -, joined, rest, hjoined, hlines, rfl⟩ := h
  have hlength := htyping.typed.length
  have hcells : t.grid.scrollbackRows ++ t.grid.visibleRows = t.grid.cells := by
    have hvisible : t.grid.visibleRows = t.grid.cells.drop t.grid.scrollbackLen := by
      rw [Grid.visibleRows, List.take_of_length_le]
      rw [List.length_drop]
      omega
    rw [Grid.scrollbackRows, hvisible, List.take_append_drop]
  have hsplit : t.grid.cells = t.grid.cells.take place.1 ++ row :: t.grid.cells.drop (place.1 + 1) := by
    obtain ⟨hlt, hrow⟩ := List.getElem?_eq_some_iff.mp htyping.writing.here
    rw [← hrow, ← List.drop_eq_getElem_cons hlt, List.take_append_drop]
  have hbelow : ∀ other ∈ t.grid.cells.drop (place.1 + 1), other.Untouched t.grid.cols := by
    intro other hmem
    obtain ⟨j, hj⟩ := List.getElem?_of_mem hmem
    rw [List.getElem?_drop] at hj
    exact htyping.typed.below _ other (by omega) hj
  obtain ⟨n, hended⟩ := joinRow_ended htyping joined rest
  obtain ⟨blank, hblank, hspaces⟩ := foldl_joinRow_untouched hbelow
    (joined ++ [rest ++ Row.cellsText used ++ List.replicate n ' '])
  have hfold : (t.grid.cells.foldl Grid.joinRow ([], [])).1 =
      joined ++ [rest ++ Row.cellsText used ++ List.replicate n ' '] ++ blank := by
    rw [hsplit, List.foldl_append, hjoined, List.foldl_cons, hended, hblank]
  have hlinked : Grid.Linked (t.grid.scrollbackRows ++ t.grid.visibleRows) := by
    rw [hcells]
    exact htyping.linked hids
  rw [htyping.main, Grid.trimText_logicalEmission _ _ hlinked, hcells, hfold,
    trimText_append_blank _ hspaces, trimText, trimText, List.map_append, List.map_append, hlines,
    List.map_singleton, List.map_singleton, trimEnd_append_spaces]

theorem run?_typeText (cols rows : UInt16) (limit : Nat) (logicalShadow : Bool)
    {lines : List (List Char)}
    (hwidth : ∀ line ∈ lines, ∀ c ∈ line, charWidth c = 1 ∨ charWidth c = 2)
    (hcols : 2 ≤ cols.toNat)
    (hroom : textRows charWidth cols.toNat lines ≤ limit + max rows.toNat 1)
    (hids : textRows charWidth cols.toNat lines ≤ 2 ^ 64) (surface : LogicalEmissionSurface) :
    Returns (run? charWidth { grid := .new cols rows limit logicalShadow } (Screen.typeText lines))
      fun t => trimText (joinedLines (t.grid.logicalEmission surface t.state.inAltScreen)) =
        trimText lines := by
  have hnew := typedText_new cols rows limit logicalShadow
  have hsize : (sanitizeDimensions cols rows).cols = cols.toNat := Nat.max_eq_left (by omega)
  cases lines with
  | nil => exact .pure (hnew.trimText_logicalEmission (by decide) surface)
  | cons line lines =>
      have hrows : textRows charWidth cols.toNat (line :: lines) =
          wrappedRows charWidth cols.toNat line + textRows charWidth cols.toNat lines := by
        simp [textRows]
      have hend : (layLine charWidth cols.toNat (0, 0) line).1 + 1 =
          wrappedRows charWidth cols.toNat line := rfl
      have hline := hnew.typeLine (hwidth line List.mem_cons_self) (by omega)
        (by rw [hsize]; show _ < limit + max rows.toNat 1; omega) (by rw [hsize]; omega)
      rw [Screen.typeText, run?, List.foldlM_append]
      refine .bind hline fun t₁ ht₁ => ?_
      rw [hsize] at ht₁
      have hmore := ht₁.typeText (fun line hmem => hwidth line (List.mem_cons_of_mem _ hmem))
        (by omega) (by rw [hsize]; show _ < limit + max rows.toNat 1; omega) (by rw [hsize]; omega)
      refine hmore.mono fun t ⟨place, init, last, htyped, hlines, hplace⟩ => ?_
      rw [htyped.trimText_logicalEmission hplace surface, hlines]
      rfl

end Terminal

namespace Screen

theorem ok_typeText (lines : List (List Char)) : ∀ e ∈ typeText lines, e.Ok := by
  have hline : ∀ (line : List Char), ∀ e ∈ typeLine line, e.Ok := by
    intro line e he
    obtain ⟨c, -, rfl⟩ := List.mem_map.mp he
    trivial
  intro e he
  cases lines with
  | nil => cases he
  | cons line lines =>
      obtain he | he := List.mem_append.mp he
      · exact hline line e he
      · obtain ⟨next, -, he⟩ := List.mem_flatMap.mp he
        obtain he | he := List.mem_append.mp he
        · simp only [newline, List.mem_cons, List.not_mem_nil, or_false] at he
          rcases he with rfl | rfl <;> trivial
        · exact hline next e he

/-- A width and a height at which the rows of a text fit. They are kept in a vector, of which
the length is a 64-bit word. -/
structure Fits (charWidth : Char → Nat) (lines : List (List Char)) (cols rows : UInt16)
    (limit : Nat) : Prop where
  wide : 2 ≤ cols.toNat
  room : textRows charWidth cols.toNat lines ≤ limit + max rows.toNat 1
  ids : textRows charWidth cols.toNat lines ≤ 2 ^ 64

/-- The chunks of the logical history join to the lines that were typed, the same at every
width that fits. -/
theorem logicalEmission_typeText (charWidth : Char → Nat) {lines : List (List Char)}
    (hwidth : ∀ line ∈ lines, ∀ c ∈ line, charWidth c = 1 ∨ charWidth c = 2)
    {cols rows : UInt16} {limit : Nat} (hfits : Fits charWidth lines cols rows limit)
    {cols' rows' : UInt16} {limit' : Nat} (hfits' : Fits charWidth lines cols' rows' limit')
    (surface : LogicalEmissionSurface) :
    Returns ((Screen.new cols rows limit).run? charWidth (typeText lines)) fun s =>
      trimText (joinedLines (s.logicalEmission surface)) = trimText lines ∧
        Returns ((Screen.new cols' rows' limit').run? charWidth (typeText lines)) fun s' =>
          trimText (joinedLines (s'.logicalEmission surface)) =
            trimText (joinedLines (s.logicalEmission surface)) := by
  have hone : ∀ {cols rows : UInt16} {limit : Nat}, Fits charWidth lines cols rows limit →
      Returns ((Screen.new cols rows limit).run? charWidth (typeText lines)) fun s =>
        trimText (joinedLines (s.logicalEmission surface)) = trimText lines := by
    intro cols rows limit hfits
    obtain ⟨s, hrun, -⟩ := (inOrder_new cols rows limit).run? charWidth (ok_typeText lines)
    obtain ⟨-, hlogical⟩ := run?_terminals hrun
    have htext := Terminal.run?_typeText cols rows limit true hwidth hfits.wide hfits.room hfits.ids
      surface
    exact ⟨s, hrun, htext.of_eq hlogical⟩
  refine (hone hfits).mono fun s hs => ⟨hs, (hone hfits').mono fun s' hs' => ?_⟩
  rw [hs, hs']

/-- A text with a wide character that meets the margin at width three, and not at width two. -/
def wideText : List (List Char) := [['a', 'b', '界'], [], ['c', '界', ' ']]

def wideTextWidth (c : Char) : Nat := if c = '界' then 2 else 1

theorem wideTextWidth_eq (c : Char) : wideTextWidth c = 1 ∨ wideTextWidth c = 2 := by
  unfold wideTextWidth
  split
  · exact .inr rfl
  · exact .inl rfl

theorem logicalEmission_wideText :
    Returns ((Screen.new 3 1 9).run? wideTextWidth (typeText wideText)) fun s =>
      trimText (joinedLines (s.logicalEmission .attachReplay)) = trimText wideText ∧
        Returns ((Screen.new 2 4 5).run? wideTextWidth (typeText wideText)) fun s' =>
          trimText (joinedLines (s'.logicalEmission .attachReplay)) =
            trimText (joinedLines (s.logicalEmission .attachReplay)) :=
  logicalEmission_typeText wideTextWidth (fun _ _ c _ => wideTextWidth_eq c) ⟨by decide, by decide, by decide⟩
    ⟨by decide, by decide, by decide⟩ .attachReplay

end Screen

end QuorumDispatch.Screen
