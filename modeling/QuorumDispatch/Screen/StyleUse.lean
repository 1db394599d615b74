import QuorumDispatch.Screen.AllLines
import QuorumDispatch.Screen.Interning
import QuorumDispatch.Screen.Reachable

/-!
The ids of the cells. Every id that a cell has is in use in the table, on the screen, in
the history and on the main screen that is set aside. So interning and compaction leave
what the cells resolve to, in every run. That the style of a cell is found again under its
id holds in the runs that return to the main screen only while no free slot holds a style
of the main screen.
-/

namespace QuorumDispatch.Screen

open Lib

set_option linter.dupNamespace false

/-! ### The ids of a line -/

namespace Line

/-- Every cell has an id that meets `Q`. -/
def Ids (Q : Nat → Prop) (line : Line) : Prop := ∀ cell ∈ line.cells, Q cell.styleId

variable {Q : Nat → Prop} {line : Line} {cell blank : Cell}

theorem Ids.mono {Q' : Nat → Prop} (h : line.Ids Q) (hQ : ∀ id, Q id → Q' id) : line.Ids Q' :=
  fun cell hcell => hQ _ (h cell hcell)

theorem ids_new (h0 : Q 0) (cols : Nat) : (new cols).Ids Q := by
  intro cell hcell
  rw [List.eq_of_mem_replicate hcell]
  exact h0

theorem Ids.set (h : line.Ids Q) (x : Nat) (hcell : Q cell.styleId) : (line.set x cell).Ids Q := by
  intro c hc
  obtain hmem | rfl := List.mem_or_eq_of_mem_set hc
  · exact h c hmem
  · exact hcell

theorem Ids.fixupWideCharAt (h : line.Ids Q) (h0 : Q 0) (cols x : Nat) :
    (line.fixupWideCharAt cols x).Ids Q := by
  unfold Line.fixupWideCharAt
  split_ifs
  · exact (h.set _ h0).set _ h0
  · exact h.set _ h0
  · exact (h.set _ h0).set _ h0
  · exact h

theorem Ids.put (h : line.Ids Q) (h0 : Q 0) (cols x : Nat) (hcell : Q cell.styleId) :
    (line.put cols x cell).Ids Q := by
  have hput : (((line.fixupWideCharAt cols x).set x cell).clearCombining x).Ids Q :=
    (h.fixupWideCharAt h0 cols x).set x hcell
  unfold Line.put
  dsimp only
  split_ifs
  · exact (hput.fixupWideCharAt h0 cols (x + 1)).set (x + 1) hcell
  · exact hput

theorem Ids.foldl_set (h : line.Ids Q) (hblank : Q blank.styleId) (xs : List Nat) :
    (xs.foldl (fun l i => l.set i blank) line).Ids Q := by
  induction xs generalizing line with
  | nil => exact h
  | cons x xs ih => exact ih (h.set x hblank)

theorem Ids.erase (h : line.Ids Q) (h0 : Q 0) (cols start stop : Nat) (hblank : Q blank.styleId) :
    (line.erase cols start stop blank).Ids Q := by
  unfold Line.erase
  dsimp only
  refine Ids.foldl_set ?_ hblank _
  split_ifs
  · exact (h.fixupWideCharAt h0 cols start).fixupWideCharAt h0 cols stop
  · exact h.fixupWideCharAt h0 cols start

theorem ids_eraseAll (line : Line) (hblank : Q blank.styleId) : (line.eraseAll blank).Ids Q := by
  intro c hc
  obtain ⟨-, -, rfl⟩ := List.mem_map.mp hc
  exact hblank

theorem Ids.iterate {f : Line → Line} (hf : ∀ line : Line, line.Ids Q → (f line).Ids Q)
    (h : line.Ids Q) (n : Nat) : (f^[n] line).Ids Q := by
  induction n generalizing line with
  | zero => exact h
  | succ n ih => exact ih (hf line h)

theorem Ids.blankContinuation (h : line.Ids Q) (hblank : Q blank.styleId) (x : Nat) :
    (Display.blankContinuation x blank line).Ids Q := by
  unfold Display.blankContinuation
  dsimp only
  split_ifs
  · exact (h.set _ hblank).set _ hblank
  · exact h.set _ hblank

theorem Ids.deleteCells (h : line.Ids Q) (h0 : Q 0) (cols x n : Nat) (hblank : Q blank.styleId) :
    (Display.deleteCells cols x n blank line).Ids Q := by
  have hshift : ∀ line : Line, line.Ids Q → ((line.remove x).push blank).Ids Q := by
    intro line h c hc
    obtain hmem | hmem := List.mem_append.mp hc
    · exact h c (List.mem_of_mem_eraseIdx hmem)
    · rw [List.mem_singleton.mp hmem]
      exact hblank
  have hshifted := (h.fixupWideCharAt h0 cols x).iterate hshift (min n (cols - x))
  unfold Display.deleteCells Display.fixDeleted
  split_ifs
  · exact hshifted.blankContinuation hblank _
  · exact hshifted

theorem Ids.insertCells (h : line.Ids Q) (h0 : Q 0) (cols x n : Nat) (hblank : Q blank.styleId) :
    (Display.insertCells cols x n blank line).Ids Q := by
  have hshift : ∀ line : Line, line.Ids Q → (line.pop.insert x blank).Ids Q := by
    intro line h c hc
    obtain rfl | hmem := List.eq_or_mem_of_mem_insertIdx hc
    · exact hblank
    · exact h c (List.mem_of_mem_dropLast hmem)
  have hshifted := (h.fixupWideCharAt h0 cols x).iterate hshift (min n (cols - x))
  unfold Display.insertCells Display.fixInserted
  split_ifs
  · exact hshifted.set _ hblank
  · exact hshifted.blankContinuation hblank _
  · exact hshifted

theorem Ids.fitLine (h : line.Ids Q) (h0 : Q 0) (cols : Nat) : (Sheet.fitLine cols line).Ids Q := by
  have hcut : (line.fixWideCharOrphanAtBoundary cols).Ids Q := by
    unfold Line.fixWideCharOrphanAtBoundary
    dsimp only
    split_ifs
    · exact h
    · exact h.set _ h0
    · exact (h.set _ h0).set _ h0
    · exact h
  intro c hc
  obtain hmem | hmem := List.mem_append.mp hc
  · exact hcut c (List.mem_of_mem_take hmem)
  · rw [List.eq_of_mem_replicate hmem]
    exact h0

end Line

/-! ### Every change -/

theorem lineRule_ids {R : Rules} {d : Display} (h : d.sheet.styleTable.Ok) :
    LineRule R (Line.Ids d.sheet.styleTable.Used) d where
  blank fill hfill cell hcell := by
    rw [List.eq_of_mem_replicate hcell]
    exact h.used_of_gives hfill.id
  new := Line.ids_new (.inl rfl) _
  edit f hf line _ hline := by
    have h0 : d.sheet.styleTable.Used 0 := .inl rfl
    cases hf with
    | put x cell _ hid => exact hline.put h0 _ x (h.used_of_gives hid)
    | erase start stop blank _ _ hblank => exact hline.erase h0 _ _ _ (h.used_of_gives hblank.id)
    | eraseAll blank hblank => exact Line.ids_eraseAll line (h.used_of_gives hblank.id)
    | mark x c => exact hline
    | delete x n blank _ hblank => exact hline.deleteCells h0 _ _ _ (h.used_of_gives hblank.id)
    | insert x n blank _ hblank => exact hline.insertCells h0 _ _ _ (h.used_of_gives hblank.id)
  pad line x blank _ hblank _ _ hline := hline.set x (h.used_of_gives hblank.id)
  fit line hline := hline.fitLine (.inl rfl) _

namespace Display

variable {R : Rules} {d d' : Display}

def allLines (d : Display) : List Line :=
  d.sheet.history ++ d.sheet.lines ++ (d.state.savedGrid.map SavedSheet.lines).getD []

theorem allLines_iff {P : Line → Prop} : d.AllLines P ↔ ∀ line ∈ d.allLines, P line := by
  refine ⟨fun h line hline => ?_, fun h => ⟨fun line hline => ?_, fun line hline => ?_, ?_⟩⟩
  · obtain hmem | hsaved := List.mem_append.mp hline
    · obtain hhist | hlines := List.mem_append.mp hmem
      · exact h.history line hhist
      · exact h.lines line hlines
    · cases hgrid : d.state.savedGrid with
      | none => simp [hgrid] at hsaved
      | some saved => exact h.saved saved hgrid line (by simpa [hgrid] using hsaved)
  · exact h line (by simp [allLines, hline])
  · exact h line (by simp [allLines, hline])
  · intro saved hgrid line hline
    exact h line (by simp [allLines, hgrid, hline])

theorem resumeRegion_table (hsaved : d.state.savedGrid = none) :
    d.resumeRegion.sheet.styleTable = compactTable d.sheet.styleTable d.resumeRegion.allLines := by
  have htable : (restoreRegion d.sheet.toFrame d.state.savedScrollRegion).styleTable =
      d.sheet.styleTable := by
    cases d.state.savedScrollRegion <;> rfl
  have hlines : d.resumeRegion.allLines = d.sheet.history ++ d.sheet.lines ++ [] := by
    simp only [allLines, resumeRegion, hsaved]
    rfl
  rw [hlines, ← htable]
  rfl

theorem exitAltScreen_table (halt : d.state.inAltScreen = true) (restore : Bool) :
    (d.exitAltScreen restore).sheet.styleTable =
      compactTable d.sheet.styleTable (d.exitAltScreen restore).allLines := by
  have hresume : d.resumeMain.sheet.styleTable = d.sheet.styleTable := by
    unfold resumeMain
    cases d.state.savedGrid <;> cases d.state.savedModes <;> rfl
  have hcursor : ∀ invalid, (d.resumeMain.restoreCursor invalid).sheet.styleTable =
      d.resumeMain.sheet.styleTable ∧ (d.resumeMain.restoreCursor invalid).state.savedGrid =
      d.resumeMain.state.savedGrid := by
    intro invalid
    unfold restoreCursor
    dsimp only
    split <;> exact ⟨rfl, rfl⟩
  unfold exitAltScreen
  rw [if_neg (by simp [halt])]
  cases restore with
  | false => exact (resumeRegion_table rfl).trans (by rw [if_neg (by simp), hresume])
  | true =>
      obtain ⟨htable, hgrid⟩ := hcursor d.resumeInvalid
      rw [if_pos rfl]
      refine (resumeRegion_table (hgrid.trans rfl)).trans ?_
      rw [htable, hresume]

/-- What a change does to the table: nothing, or it interns a style, or it reclaims the
slots that no line holds, or it starts over. -/
theorem table_change (h : d.Ok) (c : Change R d d') :
    d'.sheet.styleTable = d.sheet.styleTable ∨
    (∃ s id, d.sheet.styleTable.intern s = some (id, d'.sheet.styleTable)) ∨
    (d'.sheet.styleTable = compactTable d.sheet.styleTable d'.allLines ∧
      d.sheet.styleTable.isFull = true) ∨
    (d'.sheet.styleTable = compactTable d.sheet.styleTable d'.allLines ∧
      R.leaves d.sheet.styleTable d.mainLines ∧ d.state.inAltScreen = true ∧
      ∃ restore, d' = d.exitAltScreen restore) ∨
    (d'.sheet.styleTable = {} ∧ R.resets ∧ d' = d.fullReset) := by
  cases c with
  | frame f _ htable => exact .inl htable
  | state => exact .inl rfl
  | save => exact .inl rfl
  | intern style =>
      obtain ⟨⟨id, table⟩, htable, -⟩ := h.fits.slots.intern style
      refine .inr (.inl ⟨style, id, ?_⟩)
      simp only [Display.intern, htable, Option.getD_some]
      rfl
  | compact hfull => exact .inr (.inr (.inl ⟨rfl, hfull⟩))
  | edit => exact .inl rfl
  | pad => exact .inl rfl
  | shift => exact .inl rfl
  | capture =>
      have htable := congrArg Frame.styleTable d.sheet.capture_toFrame
      exact .inl htable
  | clear => exact .inl rfl
  | enter save hmain =>
      refine .inl ?_
      unfold enterAltScreen
      rw [if_neg (by simp [hmain])]
      cases save <;> rfl
  | exit restore hleaves halt =>
      exact .inr (.inr (.inr (.inl ⟨exitAltScreen_table halt restore, hleaves, halt, restore, rfl⟩)))
  | reset hresets =>
      have htable := congrArg Frame.styleTable (Sheet.toFrame_eraseRows
        (d.sheet.withFrame (resetFrame · d.mainLimit)) 0 d.sheet.rows {})
      exact .inr (.inr (.inr (.inr ⟨htable, hresets, rfl⟩)))

structure StylesOk (d : Display) : Prop where
  table : d.sheet.styleTable.Ok
  ids : d.AllLines (Line.Ids d.sheet.styleTable.Used)

theorem AllLines.of_holds {Q : Nat → Prop} (h : d.AllLines (Line.Ids Q)) {id : Nat}
    (hid : StyleTable.Holds d.allLines id) : Q id := by
  obtain ⟨line, hline, cell, hcell, rfl⟩ := hid
  exact allLines_iff.mp h line hline cell hcell

theorem AllLines.compactTable {t : StyleTable} (ht : t.Ok) (h : d.AllLines (Line.Ids t.Used)) :
    d.AllLines (Line.Ids (compactTable t d.allLines).Used) := by
  refine allLines_iff.mpr fun line hline cell hcell => ?_
  exact (allLines_iff.mp h line hline cell hcell).compactTable ht ⟨line, hline, cell, hcell, rfl⟩

theorem StylesOk.change (h : d.Ok) (c : Change R d d') (hs : d.StylesOk) : d'.StylesOk := by
  have hids := hs.ids.change h c (lineRule_ids hs.table)
  obtain htable | ⟨s, id, hintern⟩ | ⟨htable, -⟩ | ⟨htable, -⟩ | ⟨htable, -, rfl⟩ :=
    table_change h c
  · exact ⟨htable ▸ hs.table, htable ▸ hids⟩
  · refine ⟨hs.table.intern hintern, hids.mono fun line hline => ?_⟩
    exact hline.mono fun k hk => (hk.intern hs.table hintern).1
  · exact ⟨htable ▸ hs.table.compactTable, htable ▸ hids.compactTable hs.table⟩
  · exact ⟨htable ▸ hs.table.compactTable, htable ▸ hids.compactTable hs.table⟩
  · refine ⟨htable ▸ StyleTable.ok_empty, ?_⟩
    exact AllLines.fullReset h (Line.ids_new (.inl rfl) _)

theorem holds_exitAltScreen (h : d.Ok) (halt : d.state.inAltScreen = true) {restore : Bool}
    {id : Nat} (hid : StyleTable.Holds (d.exitAltScreen restore).allLines id) :
    id = 0 ∨ StyleTable.Holds d.mainLines id := by
  have hids : (d.exitAltScreen restore).AllLines
      (Line.Ids fun id => id = 0 ∨ StyleTable.Holds d.mainLines id) := by
    refine AllLines.exitAltScreen h halt restore (Line.ids_new (.inl rfl) _)
      (fun line hline => hline.fitLine (.inl rfl) _) (fun line hline => ?_)
      (fun saved hsaved line hline => ?_)
    · exact fun cell hcell => .inr ⟨line, by simp [mainLines, hline], cell, hcell, rfl⟩
    · exact fun cell hcell => .inr ⟨line, by simp [mainLines, hsaved, hline], cell, hcell, rfl⟩
  exact hids.of_holds hid

/-- A change keeps the index complete, if the main screen returns only while no free slot
holds one of its styles. -/
theorem complete_change (hleaves : ∀ table lines, R.leaves table lines → table.FreeApart lines)
    (h : d.Ok) (c : Change R d d') (hs : d.StylesOk) (hc : d.sheet.styleTable.Complete) :
    d'.sheet.styleTable.Complete := by
  have hids := hs.ids.change h c (lineRule_ids hs.table)
  obtain htable | ⟨s, id, hintern⟩ | ⟨htable, hfull⟩ | ⟨htable, hleave, halt, restore, rfl⟩ |
    ⟨htable, -⟩ := table_change h c
  · exact htable ▸ hc
  · exact hc.intern hs.table hintern
  · rw [htable]
    refine hc.compactTable hs.table (fun id hid => hids.of_holds hid) fun k hk => ?_
    -- a full table has no free slots
    simp only [StyleTable.isFull, Bool.and_eq_true, List.isEmpty_iff] at hfull
    simp [hfull.2] at hk
  · rw [htable]
    refine hc.compactTable hs.table (fun id hid => hids.of_holds hid) fun k hk id hpos hid => ?_
    obtain rfl | hheld := holds_exitAltScreen h halt hid
    · exact absurd rfl hpos.ne
    · exact hleaves _ _ hleave k hk id hpos hheld
  · exact htable ▸ StyleTable.complete_empty

theorem styleTable_resize (d : Display) (cols rows : UInt16) (keepWrap : Bool) :
    (d.resize cols rows keepWrap).sheet.styleTable = d.sheet.styleTable :=
  (kept_resizeGrid d.sheet d.state.inAltScreen cols rows keepWrap).1.table

theorem StylesOk.resize (hs : d.StylesOk) (cols rows : UInt16) (keepWrap : Bool) :
    (d.resize cols rows keepWrap).StylesOk := by
  have htable := styleTable_resize d cols rows keepWrap
  refine ⟨htable ▸ hs.table, htable ▸ hs.ids.resize cols rows keepWrap ?_ fun line hline => ?_⟩
  · exact Line.ids_new (.inl rfl) _
  · exact hline.fitLine (.inl rfl) _

end Display

/-! ### The property -/

namespace Terminal

/-- The rows that the terminal keeps: its scrollback, what it shows, and the main screen
that is set aside. -/
def keptRows (t : Terminal) : List Row :=
  t.grid.scrollbackRows ++ t.grid.visibleRows ++
    (t.state.savedGrid.map SavedGrid.visibleCells).getD []

def CellId (t : Terminal) (id : Nat) : Prop :=
  ∃ row ∈ t.keptRows, ∃ cell ∈ row.cells, cell.styleId = id

/-- Compaction frees no id of a cell and leaves what it resolves to; the pen and a saved
cursor, which hold styles and no ids, are left alone. Interning returns, keeps what the
cells resolve to, and answers with an id of the style until the table is full. The style
of a cell is found again under its id, and the table stays as it is. -/
structure StylesKept (t : Terminal) : Prop where
  compact : ∀ id, t.CellId id →
    (compactStyles t.grid t.state.savedGrid).styleTable.get id = t.grid.styleTable.get id ∧
      id ∉ (compactStyles t.grid t.state.savedGrid).styleTable.freeSlots
  pen : (t.withGrid (compactStyles · t.state.savedGrid)).state = t.state
  intern : ∀ s, Returns (t.internWithGc? s) fun r =>
    (t.grid.styleTable.isFull = false → r.2.grid.styleTable.get r.1 = s) ∧
      ∀ id, t.CellId id → r.2.grid.styleTable.get id = t.grid.styleTable.get id
  again : ∀ id, t.CellId id → t.internWithGc? (t.grid.styleTable.get id) = some (id, t)

/-! ### The condition -/

/-- No free slot holds the style of a cell of the main screen, its scrollback included,
that is set aside. -/
def freeSlotsApart (t : Terminal) : Bool :=
  t.grid.styleTable.freeSlots.all fun k =>
    (t.grid.scrollbackRows ++ (t.state.savedGrid.map SavedGrid.visibleCells).getD []).all fun row =>
      row.cells.all fun cell =>
        cell.styleId == 0 || t.grid.styleTable.get k != t.grid.styleTable.get cell.styleId

/-- The same of a terminal that an event takes back to the main screen. -/
def returnsApart (t : Terminal) : Event → Bool
  | .callback (.csiDispatch ps intermediates 'l') =>
      !(intermediates == ascii "?" && ps.any (fun p => decide (Rules.altMode p)) &&
        t.state.inAltScreen) || t.freeSlotsApart
  | _ => true

end Terminal

def Screen.runReturnsApart (charWidth : Char → Nat) (s : Screen) (events : List Event) : Bool :=
  s.runMeets charWidth Terminal.returnsApart events

/-! ### Runs -/

/-- A return to the main screen only while no free slot holds one of its styles. -/
def interning : Rules where
  narrow := False
  pad _ _ := True
  saves := True
  clears := True
  leaves := StyleTable.FreeApart
  resets := True

namespace Terminal

variable {t : Terminal} {d : Display}

theorem Shows.styleTable (h : t.Shows d) : t.grid.styleTable = d.sheet.styleTable :=
  congrArg Frame.styleTable h.frame

theorem Shows.keptRows (h : t.Shows d) (hd : d.Ok) : t.keptRows.map Row.toLine = d.allLines := by
  have hsaved : t.state.savedGrid.map SavedGrid.shown = d.state.savedGrid :=
    congrArg ScreenState.savedGrid h.state
  rw [Terminal.keptRows, map_toLine_rows h.grid hd.fits, hsaved]
  rfl

theorem Shows.cellId (h : t.Shows d) (hd : d.Ok) {id : Nat} :
    t.CellId id ↔ StyleTable.Holds d.allLines id := by
  rw [← h.keptRows hd]
  simp [CellId, StyleTable.Holds]

theorem Shows.freeApart (h : t.Shows d) (hfree : t.freeSlotsApart = true) :
    d.sheet.styleTable.FreeApart d.mainLines := by
  have hlines : (t.grid.scrollbackRows ++
      (t.state.savedGrid.map SavedGrid.visibleCells).getD []).map Row.toLine = d.mainLines := by
    rw [List.map_append, map_toLine_scrollbackRows h.grid, Display.mainLines, ← show t.state.savedGrid.map SavedGrid.shown =
        d.state.savedGrid from congrArg ScreenState.savedGrid h.state]
    cases t.state.savedGrid <;> rfl
  intro k hk id hpos hid
  rw [← hlines] at hid
  obtain ⟨line, hline, cell, hcell, rfl⟩ := hid
  obtain ⟨row, hrow, rfl⟩ := List.mem_map.mp hline
  rw [← h.styleTable] at hk ⊢
  simp only [freeSlotsApart, List.all_eq_true] at hfree
  have hapart := hfree k hk row hrow cell hcell
  simpa [hpos.ne'] using hapart

theorem Shows.admitsInterning (charWidth : Char → Nat) (h : t.Shows d) {c : Callback}
    (hc : t.returnsApart (.callback c) = true) : interning.Admits charWidth d c := by
  cases c with
  | print c => exact ⟨False.elim, fun _ => trivial⟩
  | execute => trivial
  | oscDispatch => trivial
  | escDispatch => exact ⟨fun _ _ => trivial, fun _ _ => trivial⟩
  | csiDispatch ps intermediates action =>
      refine ⟨fun _ _ _ => ⟨False.elim, fun _ => trivial⟩, fun _ _ => trivial, fun _ _ => trivial,
        fun _ _ _ => trivial, ?_⟩
      rintro rfl hprivate ⟨p, hp, hmode⟩ halt
      have hany : ps.any (fun p => decide (Rules.altMode p)) = true :=
        List.any_eq_true.mpr ⟨p, hp, decide_eq_true hmode⟩
      have halt' : t.state.inAltScreen = true :=
        (congrArg ScreenState.inAltScreen h.state).trans halt
      refine h.freeApart ?_
      simpa [returnsApart, hprivate, hany, halt'] using hc

theorem cellId_holds {id : Nat} (h : t.CellId id) :
    StyleTable.Holds (t.keptRows.map Row.toLine) id := by
  obtain ⟨row, hrow, cell, hcell, rfl⟩ := h
  exact ⟨row.toLine, List.mem_map_of_mem hrow, cell, hcell, rfl⟩

theorem internWithGc?_keeps (htable : t.grid.styleTable.Ok)
    (hids : ∀ id, t.CellId id → t.grid.styleTable.Used id) (s : Style) :
    Returns (t.internWithGc? s) fun r =>
      (t.grid.styleTable.isFull = false → r.2.grid.styleTable.get r.1 = s) ∧
        ∀ id, t.CellId id → r.2.grid.styleTable.get id = t.grid.styleTable.get id := by
  have hslots : t.grid.styleTable.SlotsOk := fun k hk => (htable.free k hk).2
  obtain ⟨⟨id, table⟩, hintern, hslots'⟩ := hslots.intern s
  have hok := htable.intern hintern
  unfold internWithGc? intern?
  rw [hintern]
  refine .bind_eq rfl ?_
  dsimp only
  split_ifs with hretry
  · -- the table is full: what the cells have is held, and so it stays
    obtain ⟨hzero, hstyle, -⟩ := hretry
    have hok₂ : (compactTable table (t.keptRows.map Row.toLine)).Ok := hok.compactTable
    obtain ⟨⟨id', table'⟩, hintern', -⟩ :=
      (compactTable_slotsOk hslots' (t.keptRows.map Row.toLine)).intern s
    refine .bind_eq hintern' (.pure ⟨fun hroom => ?_, fun k hk => ?_⟩)
    · have hget := htable.get_intern hroom hintern
      rw [hzero, hok.default] at hget
      simp [← hget, Style.isDefault] at hstyle
    · obtain ⟨hused, hget⟩ := (hids k hk).intern htable hintern
      have hused₂ := hused.compactTable hok (cellId_holds hk)
      obtain ⟨-, hget'⟩ := hused₂.intern hok₂ hintern'
      rw [StyleTable.get_compactTable] at hget'
      exact hget'.trans hget
  · refine .pure ⟨fun hroom => htable.get_intern hroom hintern, fun k hk => ?_⟩
    exact ((hids k hk).intern htable hintern).2

theorem stylesKept_of_complete (h : t.Shows d) (hd : d.Ok) (hs : d.StylesOk)
    (hc : d.sheet.styleTable.Complete) : t.StylesKept := by
  have hids : ∀ id, t.CellId id → t.grid.styleTable.Used id := by
    intro id hid
    rw [h.styleTable]
    exact hs.ids.of_holds ((h.cellId hd).mp hid)
  have htable : t.grid.styleTable.Ok := h.styleTable ▸ hs.table
  have hcomplete : t.grid.styleTable.Complete := h.styleTable ▸ hc
  refine ⟨fun id hid => ⟨StyleTable.get_compactTable .., fun hfree => ?_⟩, rfl,
    internWithGc?_keeps htable hids, fun id hid => ?_⟩
  · exact ((htable.mem_freeSlots_compactTable _).mp hfree).2.2 (cellId_holds hid)
  · have hintern := hcomplete.intern_get htable (hids id hid)
    unfold internWithGc? intern?
    rw [hintern]
    refine if_neg fun hretry => ?_
    have hdefault := hretry.2.1
    rw [hretry.1, htable.default] at hdefault
    cases hdefault

def StylesFound (t : Terminal) : Prop :=
  ∃ d : Display, d.Ok ∧ t.Shows d ∧ d.StylesOk ∧ d.sheet.styleTable.Complete

theorem StylesFound.stylesKept (h : t.StylesFound) : t.StylesKept := by
  obtain ⟨d, hd, hs, hstyles, hc⟩ := h
  exact stylesKept_of_complete hs hd hstyles hc

theorem StylesFound.step? {charWidth : Char → Nat} {t' : Terminal} {e : Event} (h : t.StylesFound)
    (hapart : t.returnsApart e = true) (hstep : t.step? charWidth e = some t') :
    t'.StylesFound := by
  obtain ⟨d, hd, hs, hstyles, hc⟩ := h
  obtain ⟨d', hstep', hs', hd'⟩ := hs.of_step? hd hstep
  cases hstep' with
  | callback c =>
      have hchanges := Display.changes_callback charWidth hd
        (hs.admitsInterning charWidth hapart)
      have hboth : (d.callback charWidth c).StylesOk ∧
          (d.callback charWidth c).sheet.styleTable.Complete :=
        hchanges.invariant (I := fun d => d.StylesOk ∧ d.sheet.styleTable.Complete)
          (fun h c hd => ⟨hd.1.change h c, Display.complete_change (fun _ _ h => h) h c hd.1 hd.2⟩)
          ⟨hstyles, hc⟩
      exact ⟨_, hd', hs', hboth.1, hboth.2⟩
  | resize cols rows keepWrap =>
      refine ⟨_, hd', hs', hstyles.resize cols rows keepWrap, ?_⟩
      rw [Display.styleTable_resize]
      exact hc

theorem stylesFound_new (cols rows : UInt16) (limit : Nat) (logicalShadow : Bool) :
    StylesFound { grid := .new cols rows limit logicalShadow } := by
  refine ⟨_, ok_new cols rows limit logicalShadow, shows_new .., ⟨StyleTable.ok_empty, ?_⟩,
    StyleTable.complete_empty⟩
  refine ⟨fun line hline => ?_, by simp [Sheet.new], by simp⟩
  rw [List.eq_of_mem_replicate hline]
  exact Line.ids_new (.inl rfl) _

end Terminal

namespace Screen

/-- In every run that returns to the main screen only while no free slot holds the style of
a cell of the main screen, interning and compaction keep the styles in every state
reached. -/
theorem stylesKept_of_returnsApart (charWidth : Char → Nat) (cols rows : UInt16) (limit : Nat)
    (pre post : List Event) (s : Screen)
    (hapart : (Screen.new cols rows limit).runReturnsApart charWidth (pre ++ post) = true)
    (hrun : (Screen.new cols rows limit).run? charWidth pre = some s) :
    s.terminal.StylesKept ∧ s.logical.StylesKept := by
  obtain ⟨hterminal, hlogical⟩ := run?_invariant (I := Terminal.StylesFound)
    (fun h hapart hstep => h.step? hapart hstep)
    ⟨Terminal.stylesFound_new cols rows limit false, Terminal.stylesFound_new cols rows limit true⟩
    hapart hrun
  exact ⟨hterminal.stylesKept, hlogical.stylesKept⟩

/-- A character in red and one in green, both erased, then a visit to the alternate screen:
on the return both slots are free. -/
def redGreenErased : List Event :=
  [.callback (.csiDispatch [[31]] [] 'm'), .callback (.print 'a'),
    .callback (.csiDispatch [[32]] [] 'm'), .callback (.print 'b'),
    .callback (.csiDispatch [[0]] [] 'm'), .callback (.csiDispatch [[2]] [] 'J'),
    .callback (.csiDispatch [[1049]] (ascii "?") 'h'),
    .callback (.csiDispatch [[1049]] (ascii "?") 'l')]

theorem stylesKept_redGreenErased :
    ∃ s, (Screen.new 3 2 5).run? (fun _ => 1) redGreenErased = some s ∧
      s.terminal.StylesKept ∧ s.logical.StylesKept := by
  refine ⟨_, rfl, ?_⟩
  exact stylesKept_of_returnsApart (fun _ => 1) 3 2 5 redGreenErased [] _ (by decide) rfl

/-- Red again, which goes to the slot of green while the slot of red still holds it, and a
second visit. -/
def redInSecondSlot : List Event :=
  redGreenErased ++
    [Event.callback (.csiDispatch [[31]] [] 'm'), Event.callback (.print 'a'),
      Event.callback (.csiDispatch [[1049]] (ascii "?") 'h'),
      Event.callback (.csiDispatch [[1049]] (ascii "?") 'l')]

/-- The entry of red is dropped although a cell has its id: red is interned once more, under
a second id. -/
theorem redInSecondSlot_not_kept :
    ∃ s, (Screen.new 3 2 5).run? (fun _ => 1) redInSecondSlot = some s ∧
      ¬s.terminal.StylesKept := by
  have hbad : ∃ s, (Screen.new 3 2 5).run? (fun _ => 1) redInSecondSlot = some s ∧
      (∃ row ∈ s.terminal.keptRows, ∃ cell ∈ row.cells, cell.styleId = 2) ∧
      (s.terminal.internWithGc? (s.terminal.grid.styleTable.get 2)).map Prod.fst = some 1 :=
    ⟨_, rfl, by decide⟩
  obtain ⟨s, hrun, hid, hsecond⟩ := hbad
  refine ⟨s, hrun, fun h => ?_⟩
  rw [h.again 2 hid, Option.map_some] at hsecond
  cases hsecond

end Screen

end QuorumDispatch.Screen
