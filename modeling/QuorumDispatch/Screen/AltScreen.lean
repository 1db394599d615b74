import QuorumDispatch.Screen.StyleUse

/-!
The alternate screen. What is set aside on entry, the rows of the main screen, its modes,
its scroll region and the cursor, is not touched while the alternate screen is up, nor is
the scrollback, nor what the cells set aside resolve to. So it is all there on the return.

There is one slot for a saved cursor. Saving the cursor on the alternate screen takes the
place of the cursor that was saved on entry, and the return goes to where it was last
saved.
-/

namespace QuorumDispatch.Screen

open Lib

set_option linter.dupNamespace false

/-! ### The property -/

/-- What a line shows: the character, the width and the style of each cell, and the marks. -/
def StyleTable.resolve (table : StyleTable) (line : Line) :
    List (Char × Nat × Style) × List (Nat × List Char) :=
  (line.cells.map fun cell => (cell.c, cell.width, table.get cell.styleId), line.combining)

namespace Terminal

def shownRows (t : Terminal) : List (List (Char × Nat × Style) × List (Nat × List Char)) :=
  t.grid.visibleRows.map fun row => t.grid.styleTable.resolve row.toLine

def shownScrollback (t : Terminal) : List (List (Char × Nat × Style) × List (Nat × List Char)) :=
  t.grid.scrollbackRows.map fun row => t.grid.styleTable.resolve row.toLine

structure Restores (t t' : Terminal) : Prop where
  main : t'.state.inAltScreen = false
  rows : t'.shownRows = t.shownRows
  scrollback : t'.shownScrollback = t.shownScrollback
  modes : t'.grid.modes = t.grid.modes
  region : t'.grid.scrollTop = t.grid.scrollTop ∧ t'.grid.scrollBottom = t.grid.scrollBottom
  cursor : t'.grid.cursorX = t.grid.cursorX ∧ t'.grid.cursorY = t.grid.cursorY
  pen : t'.state.currentStyle = t.state.currentStyle

end Terminal

namespace Event

def enter1049 : Event := .callback (.csiDispatch [[1049]] (ascii "?") 'h')

def exit1049 : Event := .callback (.csiDispatch [[1049]] (ascii "?") 'l')

/-- Neither RIS nor ED 3, nor a sequence that leaves the alternate screen. -/
def staysInAlt : Event → Bool
  | .callback (.csiDispatch ps intermediates action) =>
      !(action == 'J' && param ps 0 0 == 3) &&
        !(action == 'l' && intermediates == ascii "?" && ps.any fun p => decide (Rules.altMode p))
  | .callback (.escDispatch intermediates byte) => !(intermediates.isEmpty && byte == 0x63)
  | _ => true

def savesCursor : Event → Bool
  | .callback (.csiDispatch ps intermediates action) =>
      (action == 's' && intermediates.isEmpty) ||
        (action == 'h' && intermediates == ascii "?" && ps.any fun p => p.head? == some 1048)
  | .callback (.escDispatch intermediates byte) => intermediates.isEmpty && byte == 0x37
  | _ => false

end Event

/-! ### On the alternate screen -/

/-- Nothing that saves a cursor, clears the scrollback or leaves. -/
def isolation : Rules where
  narrow := False
  pad _ _ := True
  saves := False
  clears := False
  leaves _ _ := False
  resets := False

theorem admits_isolation (charWidth : Char → Nat) (d : Display) {c : Callback}
    (hstays : Event.staysInAlt (.callback c) = true)
    (hsaves : Event.savesCursor (.callback c) = false) : isolation.Admits charWidth d c := by
  cases c with
  | print c => exact ⟨False.elim, fun _ => trivial⟩
  | execute => trivial
  | oscDispatch => trivial
  | escDispatch intermediates byte =>
      refine ⟨?_, ?_⟩
      · rintro rfl rfl
        simp [Event.savesCursor] at hsaves
      · rintro rfl rfl
        simp [Event.staysInAlt] at hstays
  | csiDispatch ps intermediates action =>
      refine ⟨fun _ _ _ => ⟨False.elim, fun _ => trivial⟩, ?_, ?_, ?_, ?_⟩
      · rintro rfl hmode
        simp [Event.staysInAlt, hmode] at hstays
      · rintro rfl rfl
        simp [Event.savesCursor] at hsaves
      · rintro rfl rfl ⟨p, hp, hmode⟩
        simp [Event.savesCursor] at hsaves
        exact hsaves p hp hmode
      · rintro rfl rfl ⟨p, hp, hmode⟩ -
        simp [Event.staysInAlt] at hstays
        exact hstays p hp hmode

namespace Display

variable {main d d' : Display}

structure SetAside (main d : Display) : Prop where
  alt : d.state.inAltScreen = true
  grid : d.state.savedGrid = some
    { lines := main.sheet.lines, scrollbackLimit := main.sheet.scrollbackLimit
      saveCols := main.sheet.cols }
  modes : d.state.savedModes = some main.sheet.modes
  region : d.state.savedScrollRegion = some (main.sheet.scrollTop, main.sheet.scrollBottom)
  cursor : ∃ altEpoch, d.state.savedCursorState =
    (main.saveCursor altEpoch true).state.savedCursorState
  history : d.sheet.history = main.sheet.history
  styles : ∀ id, StyleTable.Holds (main.sheet.history ++ main.sheet.lines) id →
    d.sheet.styleTable.get id = main.sheet.styleTable.get id

theorem setAside_enterAltScreen (hmain : d.state.inAltScreen = false) :
    SetAside d (d.enterAltScreen true) := by
  have heq : d.enterAltScreen true = (d.beginEpoch true).suspendMain := by
    simp [enterAltScreen, hmain]
  rw [heq]
  exact ⟨rfl, rfl, rfl, rfl, ⟨_, rfl⟩, rfl, fun _ _ => rfl⟩

theorem SetAside.holds (h : SetAside main d) {id : Nat}
    (hid : StyleTable.Holds (main.sheet.history ++ main.sheet.lines) id) :
    StyleTable.Holds d.allLines id := by
  obtain ⟨line, hline, cell, hcell, rfl⟩ := hid
  refine ⟨line, ?_, cell, hcell, rfl⟩
  obtain hmem | hmem := List.mem_append.mp hline
  · simp [allLines, h.history, hmem]
  · simp [allLines, h.grid, hmem]

theorem get_change (h : d.Ok) (hs : d.StylesOk) (c : Change isolation d d') {id : Nat}
    (hid : StyleTable.Holds d.allLines id) :
    d'.sheet.styleTable.get id = d.sheet.styleTable.get id := by
  obtain htable | ⟨s, k, hintern⟩ | ⟨htable, -⟩ | ⟨-, hleaves, -⟩ | ⟨-, hresets, -⟩ :=
    table_change h c
  · rw [htable]
  · exact ((hs.ids.of_holds hid).intern hs.table hintern).2
  · rw [htable, StyleTable.get_compactTable]
  · exact hleaves.elim
  · exact hresets.elim

theorem SetAside.change (h : d.Ok) (hs : d.StylesOk) (c : Change isolation d d')
    (haside : SetAside main d) : SetAside main d' := by
  have hget : ∀ id, StyleTable.Holds (main.sheet.history ++ main.sheet.lines) id →
      d'.sheet.styleTable.get id = main.sheet.styleTable.get id := fun id hid =>
    (get_change h hs c (haside.holds hid)).trans (haside.styles id hid)
  obtain ⟨halt, hgrid, hmodes, hregion, hcursor, hhistory, -⟩ := haside
  cases c with
  | frame f => exact ⟨halt, hgrid, hmodes, hregion, hcursor, hhistory, hget⟩
  | state f halt' hgrid' hcursor' hmodes' hregion' =>
      exact ⟨halt'.trans halt, hgrid'.trans hgrid, hmodes'.trans hmodes, hregion'.trans hregion,
        hcursor.imp fun _ => hcursor'.trans, hhistory, hget⟩
  | save h => exact h.elim
  | intern => exact ⟨halt, hgrid, hmodes, hregion, hcursor, hhistory, hget⟩
  | compact => exact ⟨halt, hgrid, hmodes, hregion, hcursor, hhistory, hget⟩
  | edit => exact ⟨halt, hgrid, hmodes, hregion, hcursor, hhistory, hget⟩
  | pad => exact ⟨halt, hgrid, hmodes, hregion, hcursor, hhistory, hget⟩
  | shift => exact ⟨halt, hgrid, hmodes, hregion, hcursor, hhistory, hget⟩
  | capture _ _ hmain => simp [halt] at hmain
  | clear h => exact h.elim
  | enter _ hmain => simp [halt] at hmain
  | exit _ h => exact h.elim
  | reset h => exact h.elim

theorem SetAside.resize (haside : SetAside main d) (cols rows : UInt16) (keepWrap : Bool) :
    SetAside main (d.resize cols rows keepWrap) := by
  obtain ⟨halt, hgrid, hmodes, hregion, hcursor, hhistory, hstyles⟩ := haside
  obtain ⟨hkept, hhist⟩ := kept_resizeGrid d.sheet d.state.inAltScreen cols rows keepWrap
  refine ⟨halt, hgrid, hmodes, hregion, hcursor, (hhist halt).trans hhistory, fun id hid => ?_⟩
  rw [styleTable_resize]
  exact hstyles id hid

/-! ### The return -/

theorem fitLine_len {cols : Nat} {line : Line} (h : line.len = cols) :
    Sheet.fitLine cols line = line :=
  Line.resize_own_width h {}

theorem restoreSaved_lines (hmain : main.Ok) {v : Sheet} (hsize : v.size = main.sheet.size)
    (limit : Nat) :
    (restoreSaved v { lines := main.sheet.lines, scrollbackLimit := limit
                      saveCols := main.sheet.cols }).lines = main.sheet.lines := by
  have hrows : v.rows = main.sheet.lines.length :=
    (congrArg TerminalSize.rows hsize).trans hmain.fits.rows.symm
  have hcols : v.cols = main.sheet.cols := congrArg TerminalSize.cols hsize
  change (main.sheet.lines.take v.rows ++
    List.replicate (v.rows - main.sheet.lines.length) (Line.new v.cols)).map
      (Sheet.fitLine v.cols) = _
  rw [hrows, List.take_length, Nat.sub_self, List.replicate_zero, List.append_nil, hcols]
  refine (List.map_congr_left fun line hline => ?_).trans (List.map_id _)
  exact fitLine_len (hmain.fits.cols line hline)

structure Resumed (main d : Display) : Prop where
  back : d.state.inAltScreen = false
  lines : d.sheet.lines = main.sheet.lines
  history : d.sheet.history = main.sheet.history
  modes : d.sheet.modes = main.sheet.modes
  region : d.sheet.scrollTop = main.sheet.scrollTop ∧ d.sheet.scrollBottom = main.sheet.scrollBottom
  cursor : d.sheet.cursorX = main.sheet.cursorX ∧ d.sheet.cursorY = main.sheet.cursorY
  pen : d.state.currentStyle = main.state.currentStyle
  styles : ∀ id, StyleTable.Holds (main.sheet.history ++ main.sheet.lines) id →
    d.sheet.styleTable.get id = main.sheet.styleTable.get id

/-- At the size of the main screen its cursor has its row. -/
theorem SetAside.resumeInvalid (hmain : main.Ok) (haside : SetAside main d)
    (hsize : d.sheet.size = main.sheet.size) : d.resumeInvalid = false := by
  obtain ⟨altEpoch, hcursor⟩ := haside.cursor
  have hy := hmain.fits.cursorY
  have hrows : d.sheet.rows = main.sheet.rows := congrArg TerminalSize.rows hsize
  have hcols : d.sheet.cols = main.sheet.cols := congrArg TerminalSize.cols hsize
  rw [Display.resumeInvalid, haside.grid, Option.any_some, geometryInvalid, hcursor]
  have hlen := hmain.fits.rows
  simp only [saveCursor, withState, Option.any_some, hcols, bne_self_eq_false, Bool.false_or,
    decide_eq_false_iff_not]
  omega

theorem restoreCursor_some {saved : SavedCursor} (h : d.state.savedCursorState = some saved)
    (invalid : Bool) :
    d.restoreCursor invalid = (d.withFrame fun f => saved.place
      (dropWrap invalid { dropWrap invalid f with wrapPending := saved.wrapPending })).withState
        fun s => { s with currentStyle := saved.style } := by
  have hsaved : (d.withFrame (dropWrap invalid)).state.savedCursorState = some saved := h
  unfold restoreCursor
  dsimp only
  rw [hsaved]
  rfl

/-- The frame on the return: modes and cursor are placed, and the region behind them. -/
theorem SetAside.exitAltScreen_eq (haside : SetAside main d) (hvalid : d.resumeInvalid = false) :
    ∃ altEpoch saved, (main.saveCursor altEpoch true).state.savedCursorState = some saved ∧
      d.exitAltScreen true = ((d.resumeMain.withFrame fun f => saved.place
        (dropWrap false { dropWrap false f with wrapPending := saved.wrapPending })).withState
          fun s => { s with currentStyle := saved.style }).resumeRegion := by
  obtain ⟨altEpoch, hcursor⟩ := haside.cursor
  have hsaved : d.resumeMain.state.savedCursorState =
      (main.saveCursor altEpoch true).state.savedCursorState := hcursor
  refine ⟨altEpoch, _, rfl, ?_⟩
  rw [← restoreCursor_some hsaved]
  simp [Display.exitAltScreen, haside.alt, hvalid]

theorem SetAside.exitAltScreen (hmain : main.Ok) (haside : SetAside main d)
    (hsize : d.sheet.size = main.sheet.size) : Resumed main (d.exitAltScreen true) := by
  obtain ⟨altEpoch, saved, hsaved, hexit⟩ :=
    haside.exitAltScreen_eq (haside.resumeInvalid hmain hsize)
  cases hsaved
  obtain ⟨halt, hgrid, hmodes, hregion, -, hhistory, hstyles⟩ := haside
  obtain ⟨hlines', hhistory', -⟩ := exitAltScreen_alt halt true hgrid
  have hx := hmain.fits.cursorX
  have hy := hmain.fits.cursorY
  have htop := hmain.fits.top
  have hbottom := hmain.fits.bottom
  have hresume : d.resumeMain.sheet.toFrame = { d.sheet.toFrame with
      scrollbackLimit := main.sheet.scrollbackLimit, modes := main.sheet.modes } := by
    unfold resumeMain
    rw [hgrid, hmodes]
    rfl
  have hregion' : d.resumeMain.state.savedScrollRegion =
      some (main.sheet.scrollTop, main.sheet.scrollBottom) := hregion
  refine ⟨?_, ?_, ?_, ?_, ?_, ?_, ?_, fun id hid => ?_⟩
  · rw [hexit]
    rfl
  · rw [hlines']
    exact restoreSaved_lines hmain hsize _
  · exact hhistory'.trans hhistory
  · rw [hexit]
    simp only [resumeRegion, withState, withFrame, withSheet, Sheet.withFrame, compactStyles,
      hregion', restoreRegion, SavedCursor.place, dropWrap, hresume]
  · rw [hexit]
    simp only [resumeRegion, withState, withFrame, withSheet, Sheet.withFrame, compactStyles,
      hregion', restoreRegion, SavedCursor.place, dropWrap, hresume, Frame.rows, hsize]
    change main.sheet.scrollBottom < main.sheet.size.rows at hbottom
    omega
  · rw [hexit]
    simp only [resumeRegion, withState, withFrame, withSheet, Sheet.withFrame, compactStyles,
      hregion', restoreRegion, SavedCursor.place, dropWrap, hresume, Frame.rows, Frame.cols, hsize]
    change main.sheet.cursorX < main.sheet.size.cols at hx
    change main.sheet.cursorY < main.sheet.size.rows at hy
    omega
  · rw [hexit]
    rfl
  · rw [exitAltScreen_table halt, StyleTable.get_compactTable]
    exact hstyles id hid

end Display

/-! ### Runs -/

def anything : Rules where
  narrow := False
  pad _ _ := True
  saves := True
  clears := True
  leaves _ _ := True
  resets := True

theorem admits_anything (charWidth : Char → Nat) (d : Display) (c : Callback) :
    anything.Admits charWidth d c := by
  cases c with
  | print c => exact ⟨False.elim, fun _ => trivial⟩
  | execute => trivial
  | oscDispatch => trivial
  | escDispatch => exact ⟨fun _ _ => trivial, fun _ _ => trivial⟩
  | csiDispatch =>
      exact ⟨fun _ _ _ => ⟨False.elim, fun _ => trivial⟩, fun _ _ => trivial, fun _ _ => trivial,
        fun _ _ _ => trivial, fun _ _ _ _ => trivial⟩

namespace Terminal

def run? (charWidth : Char → Nat) (t : Terminal) (events : List Event) : Option Terminal :=
  events.foldlM (step? charWidth) t

variable {charWidth : Char → Nat} {t t' : Terminal} {d main : Display}

/-- A terminal with a display of which every cell has an id in use. -/
structure Styled (t : Terminal) (d : Display) : Prop where
  ok : d.Ok
  shows : t.Shows d
  styles : d.StylesOk

theorem styled_new (cols rows : UInt16) (limit : Nat) (logicalShadow : Bool) :
    Styled { grid := .new cols rows limit logicalShadow }
      { sheet := .new cols rows limit logicalShadow } := by
  refine ⟨ok_new cols rows limit logicalShadow, shows_new .., StyleTable.ok_empty, ?_⟩
  refine ⟨fun line hline => ?_, by simp [Sheet.new], by simp⟩
  rw [List.eq_of_mem_replicate hline]
  exact Line.ids_new (.inl rfl) _

theorem Styled.step? (h : t.Styled d) {e : Event} (hstep : t.step? charWidth e = some t') :
    ∃ d', d.Step charWidth e d' ∧ t'.Styled d' := by
  obtain ⟨d', hstep', hs', hd'⟩ := h.shows.of_step? h.ok hstep
  refine ⟨d', hstep', hd', hs', ?_⟩
  cases hstep' with
  | callback c =>
      have hchanges := Display.changes_callback charWidth h.ok (admits_anything charWidth d c)
      exact hchanges.invariant (fun h c hs => hs.change h c) h.styles
  | resize cols rows keepWrap => exact h.styles.resize cols rows keepWrap

theorem Styled.run? (h : t.Styled d) {events : List Event}
    (hrun : t.run? charWidth events = some t') : ∃ d', t'.Styled d' := by
  induction events generalizing t d with
  | nil =>
      cases hrun
      exact ⟨d, h⟩
  | cons e events ih =>
      obtain ⟨t₁, hstep, hrun⟩ := Option.bind_eq_some_iff.mp hrun
      obtain ⟨d₁, -, h₁⟩ := h.step? hstep
      exact ih h₁ hrun

theorem Styled.setAside (h : t.Styled d) (haside : Display.SetAside main d) {events : List Event}
    (hevents : ∀ e ∈ events, e.staysInAlt = true ∧ e.savesCursor = false)
    (hrun : t.run? charWidth events = some t') :
    ∃ d', t'.Styled d' ∧ Display.SetAside main d' := by
  induction events generalizing t d with
  | nil =>
      cases hrun
      exact ⟨d, h, haside⟩
  | cons e events ih =>
      obtain ⟨t₁, hstep, hrun⟩ := Option.bind_eq_some_iff.mp hrun
      obtain ⟨d₁, hstep', h₁⟩ := h.step? hstep
      obtain ⟨hstays, hsaves⟩ := hevents e List.mem_cons_self
      refine ih h₁ ?_ (fun e he => hevents e (List.mem_cons_of_mem _ he)) hrun
      cases hstep' with
      | callback c =>
          have hchanges := Display.changes_callback charWidth h.ok
            (admits_isolation charWidth d hstays hsaves)
          have hboth : (d.callback charWidth c).StylesOk ∧
              Display.SetAside main (d.callback charWidth c) :=
            hchanges.invariant (I := fun d => d.StylesOk ∧ Display.SetAside main d)
              (fun h c hd => ⟨hd.1.change h c, hd.2.change h hd.1 c⟩) ⟨h.styles, haside⟩
          exact hboth.2
      | resize cols rows keepWrap => exact haside.resize cols rows keepWrap

theorem Shows.shownRows (h : t.Shows d) (hd : d.Ok) :
    t.shownRows = d.sheet.lines.map d.sheet.styleTable.resolve := by
  rw [Terminal.shownRows, ← map_toLine_visibleRows h.grid hd.fits, List.map_map, h.styleTable]
  rfl

theorem Shows.shownScrollback (h : t.Shows d) :
    t.shownScrollback = d.sheet.history.map d.sheet.styleTable.resolve := by
  rw [Terminal.shownScrollback, ← map_toLine_scrollbackRows h.grid, List.map_map, h.styleTable]
  rfl

/-- Lines of which every id resolves alike show the same. -/
theorem map_resolve_congr {table table' : StyleTable} {lines : List Line}
    (h : ∀ id, StyleTable.Holds lines id → table'.get id = table.get id) :
    lines.map table'.resolve = lines.map table.resolve := by
  refine List.map_congr_left fun line hline => ?_
  rw [StyleTable.resolve, StyleTable.resolve]
  congr 1
  refine List.map_congr_left fun cell hcell => ?_
  rw [h cell.styleId ⟨line, hline, cell, hcell, rfl⟩]

theorem Restores.of_resumed (h : t.Shows main) (hmain : main.Ok) (h' : t'.Shows d) (hd : d.Ok)
    (hresumed : Display.Resumed main d) : t.Restores t' := by
  obtain ⟨hback, hlines, hhistory, hmodes, hregion, hcursor, hpen, hstyles⟩ := hresumed
  have hframe := h.frame
  have hframe' := h'.frame
  have hholds : ∀ {lines : List Line}, (∀ line ∈ lines, line ∈ main.sheet.history ++
      main.sheet.lines) → ∀ id, StyleTable.Holds lines id →
      d.sheet.styleTable.get id = main.sheet.styleTable.get id := by
    rintro lines hsub id ⟨line, hline, cell, hcell, hid⟩
    exact hstyles id ⟨line, hsub line hline, cell, hcell, hid⟩
  refine ⟨?_, ?_, ?_, ?_, ?_, ?_, ?_⟩
  · exact (congrArg ScreenState.inAltScreen h'.state).trans hback
  · rw [h'.shownRows hd, h.shownRows hmain, hlines]
    exact map_resolve_congr (hholds fun line hline => List.mem_append_right _ hline)
  · rw [h'.shownScrollback, h.shownScrollback, hhistory]
    exact map_resolve_congr (hholds fun line hline => List.mem_append_left _ hline)
  · rw [hframe', hframe]
    exact hmodes
  · rw [hframe', hframe]
    exact hregion
  · rw [hframe', hframe]
    exact hcursor
  · have hstate := congrArg ScreenState.currentStyle h.state
    have hstate' := congrArg ScreenState.currentStyle h'.state
    exact hstate'.trans (hpen.trans hstate.symm)

theorem Styled.restores (h : t.Styled d) (hmain : t.state.inAltScreen = false)
    {events : List Event} (hevents : ∀ e ∈ events, e.staysInAlt = true ∧ e.savesCursor = false)
    {t₁ t₂ t₃ : Terminal} (henter : t.step? charWidth .enter1049 = some t₁)
    (hrun : t₁.run? charWidth events = some t₂) (hsize : t₂.grid.size = t.grid.size)
    (hexit : t₂.step? charWidth .exit1049 = some t₃) : t.Restores t₃ := by
  have hmain' : d.state.inAltScreen = false :=
    (congrArg ScreenState.inAltScreen h.shows.state).symm.trans hmain
  obtain ⟨d₁, hstep₁, h₁⟩ := h.step? henter
  have haside₁ : Display.SetAside d d₁ := by
    cases hstep₁
    exact Display.setAside_enterAltScreen hmain'
  obtain ⟨d₂, h₂, haside₂⟩ := h₁.setAside haside₁ hevents hrun
  obtain ⟨d₃, hstep₃, h₃⟩ := h₂.step? hexit
  have hsize' : d₂.sheet.size = d.sheet.size := by
    rw [← congrArg Frame.size h₂.shows.frame, ← congrArg Frame.size h.shows.frame]
    exact hsize
  have hresumed : Display.Resumed d d₃ := by
    cases hstep₃
    exact haside₂.exitAltScreen h.ok hsize'
  exact .of_resumed h.shows h.ok h₃.shows h₃.ok hresumed

end Terminal

namespace Screen

variable {charWidth : Char → Nat} {s s' : Screen}

theorem step?_terminals {e : Event} (h : s.step? charWidth e = some s') :
    s.terminal.step? charWidth e = some s'.terminal ∧
      s.logical.step? charWidth e = some s'.logical := by
  obtain ⟨t, ht, h⟩ := Option.bind_eq_some_iff.mp h
  obtain ⟨l, hl, heq⟩ := Option.bind_eq_some_iff.mp h
  cases heq
  exact ⟨ht, hl⟩

theorem run?_terminals {events : List Event} (h : s.run? charWidth events = some s') :
    s.terminal.run? charWidth events = some s'.terminal ∧
      s.logical.run? charWidth events = some s'.logical := by
  induction events generalizing s with
  | nil =>
      cases h
      exact ⟨rfl, rfl⟩
  | cons e events ih =>
      obtain ⟨s₁, hstep, hrun⟩ := Option.bind_eq_some_iff.mp h
      obtain ⟨hterminal, hlogical⟩ := step?_terminals hstep
      obtain ⟨hterminals, hlogicals⟩ := ih hrun
      exact ⟨Option.bind_eq_some_iff.mpr ⟨_, hterminal, hterminals⟩,
        Option.bind_eq_some_iff.mpr ⟨_, hlogical, hlogicals⟩⟩

/-- From every state that a run reaches on the main screen, a visit to the alternate screen
that neither resets, nor clears the scrollback, nor saves the cursor, and that ends at the
size it started with, restores the main screen. -/
theorem restores_of_visit (charWidth : Char → Nat) (cols rows : UInt16) (limit : Nat)
    (pre visit : List Event) (s s₁ s₂ s₃ : Screen)
    (hrun : (Screen.new cols rows limit).run? charWidth pre = some s)
    (hvisit : ∀ e ∈ visit, e.staysInAlt = true ∧ e.savesCursor = false)
    (henter : s.step? charWidth .enter1049 = some s₁)
    (hrun' : s₁.run? charWidth visit = some s₂)
    (hexit : s₂.step? charWidth .exit1049 = some s₃) :
    (s.terminal.state.inAltScreen = false → s₂.terminal.grid.size = s.terminal.grid.size →
      s.terminal.Restores s₃.terminal) ∧
    (s.logical.state.inAltScreen = false → s₂.logical.grid.size = s.logical.grid.size →
      s.logical.Restores s₃.logical) := by
  obtain ⟨hterminal, hlogical⟩ := run?_terminals hrun
  obtain ⟨henter, henterL⟩ := step?_terminals henter
  obtain ⟨hrun', hrunL⟩ := run?_terminals hrun'
  obtain ⟨hexit, hexitL⟩ := step?_terminals hexit
  obtain ⟨d, hd⟩ := (Terminal.styled_new cols rows limit false).run? hterminal
  obtain ⟨dL, hdL⟩ := (Terminal.styled_new cols rows limit true).run? hlogical
  exact ⟨fun hmain hsize => hd.restores hmain hvisit henter hrun' hsize hexit,
    fun hmain hsize => hdL.restores hmain hvisit henterL hrunL hsize hexitL⟩

def resizedVisit : List Event :=
  [.callback (.csiDispatch [[31]] [] 'm'), .callback (.print 'x'), .resize 5 1,
    .callback (.execute 0x0A), .resize 3 2]

theorem restores_of_resizedVisit :
    ∃ s s₁ s₂ s₃ : Screen, (Screen.new 3 2 5).run? (fun _ => 1) [.callback (.print 'a')] = some s ∧
      s.step? (fun _ => 1) .enter1049 = some s₁ ∧
      s₁.run? (fun _ => 1) resizedVisit = some s₂ ∧
      s₂.step? (fun _ => 1) .exit1049 = some s₃ ∧ s.terminal.Restores s₃.terminal := by
  refine ⟨_, _, _, _, rfl, rfl, rfl, rfl, ?_⟩
  exact (restores_of_visit (fun _ => 1) 3 2 5 [.callback (.print 'a')] resizedVisit _ _ _ _ rfl
    (by decide) rfl rfl rfl).1 rfl rfl

/-- The cursor is saved on the alternate screen, in its first column, and the return goes
there. -/
theorem savedInVisit_not_restores :
    ∃ s s₁ s₂ s₃ : Screen, (Screen.new 3 2 5).run? (fun _ => 1) [.callback (.print 'a')] = some s ∧
      s.terminal.state.inAltScreen = false ∧
      s.step? (fun _ => 1) .enter1049 = some s₁ ∧
      Event.staysInAlt (.callback (.escDispatch [] 0x37)) = true ∧
      s₁.run? (fun _ => 1) [.callback (.escDispatch [] 0x37)] = some s₂ ∧
      s₂.terminal.grid.size = s.terminal.grid.size ∧
      s₂.step? (fun _ => 1) .exit1049 = some s₃ ∧ ¬s.terminal.Restores s₃.terminal := by
  refine ⟨_, _, _, _, rfl, rfl, rfl, rfl, rfl, rfl, rfl, fun h => ?_⟩
  have hcursor := h.cursor.1
  exact absurd hcursor (by decide)

end Screen

end QuorumDispatch.Screen
