import QuorumDispatch.Screen.Geometry

/-!
What each operation of the display does to its geometry and its history: an
`Effect`, by the rules of `Screen.Geometry`. Only ED 3 and the full reset clear the
history.
-/

namespace QuorumDispatch.Screen

open Lib

namespace Display

open Terminal (oscBytes)

variable {d d' : Display}

/-! ### Styles and scrolling -/

theorem effect_table (h : d.Ok) {table : StyleTable} (ht : table.SlotsOk) :
    Effect false d (d.withFrame fun f => { f with styleTable := table }) :=
  .withFrame h (d.sheet.toFrame.moves_table fun _ => ht)

theorem effect_intern (h : d.Ok) (style : Style) : Effect false d (d.intern style).2 := by
  obtain ⟨⟨id, table⟩, hr, ht⟩ := h.fits.slots.intern style
  unfold intern
  rw [hr]
  exact effect_table h ht

theorem effect_compactStyles (h : d.Ok) (saved : Option SavedSheet) :
    Effect false d (d.withSheet (compactStyles · saved)) :=
  effect_table h (compactTable_slotsOk h.fits.slots _)

theorem effect_internWithGc (h : d.Ok) (style : Style) :
    Effect false d (d.internWithGc style).2 := by
  have h₁ := effect_intern h style
  unfold internWithGc
  dsimp only
  split_ifs
  · have h₂ := h₁.trans (effect_compactStyles h₁.ok (d.intern style).2.state.savedGrid)
    exact h₂.trans (effect_intern h₂.ok style)
  · exact h₁

/-- Interning changes the table only. -/
theorem internWithGc_eq (d : Display) (style : Style) : ∃ table,
    (d.internWithGc style).2 = d.withFrame fun f => { f with styleTable := table } := by
  unfold internWithGc
  dsimp only
  split_ifs
  · exact ⟨_, rfl⟩
  · exact ⟨_, rfl⟩

-- below, only the results above are used of the interning
attribute [local irreducible] internWithGc

theorem effect_blankCell (h : d.Ok) : Effect false d d.blankCell.2 :=
  effect_internWithGc h _

theorem capture_scrolls {v : Sheet} (hne : v.lines ≠ [])
    (hle : v.history.length ≤ v.scrollbackLimit) :
    ∃ e, v.Scrolls v.scrollbackLimit v.capture (v.lines.take 1) e := by
  obtain ⟨line, lines, hlines⟩ := List.exists_cons_of_ne_nil hne
  unfold Sheet.capture
  rw [hlines]
  split_ifs with hfull
  · refine ⟨1, ?_, rfl, rfl, ?_, fun _ => ?_⟩
    · exact (List.drop_one).symm
    · simp
      omega
    · simp
      omega
  · refine ⟨0, rfl, rfl, rfl, Nat.zero_le _, fun _ => ?_⟩
    simp
    omega

theorem mainLimit_of_main (h : d.Ok) (hmain : d.state.inAltScreen = false) :
    d.mainLimit = d.sheet.scrollbackLimit := by
  unfold mainLimit
  rw [h.main hmain]

theorem effect_scrollUp (h : d.Ok) : Effect false d d.scrollUp := by
  have hblank := effect_blankCell h
  refine hblank.trans ?_
  unfold scrollUp
  dsimp only
  generalize d.blankCell.1 = fill
  generalize d.blankCell.2 = d at hblank
  have h := hblank.ok
  have hbottom := h.fits.bottom
  have hshift := h.fits.shift (h.fits.top.trans_lt hbottom) hbottom fill
  unfold withSheet Sheet.scrollUp
  dsimp only
  split_ifs with hcap
  · have hne : d.sheet.lines ≠ [] := by
      have := h.fits.rows
      rw [← List.length_pos_iff]
      omega
    have hmain := mainLimit_of_main h hcap.1
    obtain ⟨e, hs⟩ := capture_scrolls hne (hmain ▸ h.history)
    have hfits : (d.sheet.capture.insertLine d.sheet.scrollBottom (d.sheet.blankLine fill)).Fits := by
      refine hshift.of_lines d.sheet.capture_toFrame ?_
      · show d.sheet.capture.lines.insertIdx _ _ = (d.sheet.lines.eraseIdx _).insertIdx _ _
        rw [d.sheet.capture_lines, hcap.2.1, List.eraseIdx_zero]
    rw [← hmain] at hs
    have hlimit : d.sheet.capture.scrollbackLimit = d.sheet.scrollbackLimit := by
      rw [d.sheet.capture_toFrame]
    exact .of_sheet h hfits hlimit ⟨hs.history, hs.captured, hs.pending, hs.evicted_le, hs.bound⟩
  · exact .of_lines h hshift rfl rfl rfl rfl

theorem effect_scrollDown (h : d.Ok) : Effect false d d.scrollDown := by
  have hblank := effect_blankCell h
  refine hblank.trans ?_
  have h := hblank.ok
  have htop := h.fits.top.trans_lt h.fits.bottom
  exact .of_lines h (h.fits.shift h.fits.bottom htop d.blankCell.1) rfl rfl rfl rfl

theorem effect_lineFeed (h : d.Ok) : Effect false d d.lineFeed := by
  unfold lineFeed
  split_ifs with hscroll hlt
  · exact effect_scrollUp h
  · refine .withFrame h (.of_cursor rfl rfl rfl rfl rfl rfl rfl rfl fun hf => ⟨hf.cursorX, ?_⟩)
    show d.sheet.cursorY + 1 < d.sheet.rows
    omega
  · exact .refl h

/-- The rule for a loop. -/
theorem Effect.iterate {f : Display → Display} (hf : ∀ d, d.Ok → Effect false d (f d)) (h : d.Ok)
    (n : Nat) : Effect false d (f^[n] d) := by
  induction n generalizing d with
  | zero => exact .refl h
  | succ n ih =>
      have h₁ := hf d h
      exact h₁.trans (ih h₁.ok)

/-! ### The saved cursor and the alternate screen -/

theorem effect_saveCursor (h : d.Ok) (altEpoch : Option Nat) (saved : Bool) :
    Effect false d (d.saveCursor altEpoch saved) :=
  .of_state h rfl rfl rfl h.title h.titleStack

theorem moves_dropWrap (f : Frame) (invalid : Bool) : f.Moves (dropWrap invalid f) :=
  f.moves_wrap _

theorem moves_place (f : Frame) (saved : SavedCursor) : f.Moves (saved.place f) := by
  refine .of_cursor rfl rfl rfl rfl rfl rfl rfl rfl fun _ => ?_
  have := f.cols_pos
  have := f.rows_pos
  exact ⟨by show min saved.x (f.cols - 1) < f.cols; omega,
    by show min saved.y (f.rows - 1) < f.rows; omega⟩

theorem effect_restoreCursor (h : d.Ok) (invalid : Bool) :
    Effect false d (d.restoreCursor invalid) := by
  have hdrop := Effect.withFrame h (moves_dropWrap _ invalid)
  unfold restoreCursor
  dsimp only
  split
  · exact hdrop
  next saved _ =>
    have hplace := hdrop.trans (.withFrame hdrop.ok (f := fun f =>
        saved.place (dropWrap invalid { f with wrapPending := saved.wrapPending }))
      ((Frame.moves_wrap _ _).trans ((moves_dropWrap _ _).trans (moves_place _ _))))
    exact hplace.trans (.of_state hplace.ok rfl rfl rfl h.title h.titleStack)

theorem inside_altFrame {f : Frame} (h : f.Inside) : (altFrame f).Inside := by
  have hreset := (f.moves_resetScrollRegion.inside h)
  exact ⟨f.cols_pos, f.rows_pos, hreset.top, hreset.bottom, h.tabs, h.slots⟩

theorem effect_suspendMain (h : d.Ok) (hmain : d.state.inAltScreen = false) :
    Effect false d d.suspendMain := by
  have hlimit := mainLimit_of_main h hmain
  have hrows := h.fits.rows
  have hbottom := h.fits.bottom
  refine ⟨⟨⟨inside_altFrame h.fits.toInside, ?_, ?_⟩, h.pending, ?_, ?_, ?_, h.title,
    h.titleStack⟩, ?_, [], 0, ?_⟩
  · exact List.length_replicate
  · intro line hline
    rw [(List.mem_replicate.mp hline).2, Line.len_new]
    rfl
  · have := h.history
    rw [hlimit] at this
    exact this
  · intro hfalse
    simp [suspendMain] at hfalse
  · refine fun _ => ⟨rfl, _, rfl, d.sheet.cols_pos, h.fits.cols, _, _, rfl, h.fits.top, ?_⟩
    show d.sheet.scrollBottom < d.sheet.lines.length
    omega
  · exact hlimit.symm
  · exact ⟨by simp [suspendMain], by simp [suspendMain, altFrame, Frame.resetScrollRegion], rfl,
      Nat.zero_le _, fun hne => absurd rfl hne⟩

theorem effect_beginEpoch (h : d.Ok) (save : Bool) : Effect false d (d.beginEpoch save) := by
  have h₁ : Effect false d
      (d.withState fun s => { s with nextAltEpoch := nextU64 d.state.nextAltEpoch }) :=
    .of_state h rfl rfl rfl h.title h.titleStack
  unfold beginEpoch
  dsimp only
  split_ifs
  · exact h₁.trans (effect_saveCursor h₁.ok _ _)
  · exact h₁

theorem effect_enterAltScreen (h : d.Ok) (save : Bool) :
    Effect false d (d.enterAltScreen save) := by
  have hbegin := effect_beginEpoch h save
  unfold enterAltScreen
  split_ifs with halt
  · exact .refl h
  · refine hbegin.trans (effect_suspendMain hbegin.ok ?_)
    unfold beginEpoch
    dsimp only
    split_ifs <;> simpa [saveCursor, withState] using halt

theorem fits_restoreSaved {v : Sheet} (h : v.toFrame.Inside) (saved : SavedSheet) :
    (restoreSaved v saved).Fits where
  toInside := ⟨h.cursorX, h.cursorY, h.top, h.bottom, h.tabs, h.slots⟩
  rows := by
    simp only [restoreSaved, Sheet.fitCols, Sheet.fitRows, List.length_map, List.length_append,
      List.length_take, List.length_replicate]
    show min v.rows _ + (v.rows - _) = v.rows
    omega
  cols := by
    intro line hline
    simp only [restoreSaved, Sheet.fitCols, List.mem_map] at hline
    obtain ⟨line, -, rfl⟩ := hline
    exact Line.len_resize _ _ _

theorem moves_restoreRegion (f : Frame) (region : Option (Nat × Nat)) :
    f.Moves (restoreRegion f region) := by
  cases region with
  | none => exact f.moves_resetScrollRegion
  | some region =>
      refine ⟨rfl, rfl, rfl, rfl, fun h => ?_⟩
      have := f.rows_pos
      refine ⟨h.cursorX, h.cursorY, ?_, ?_, h.tabs, h.slots⟩
      · show min region.1 (f.rows - 1) ≤ max (min region.2 (f.rows - 1)) (min region.1 (f.rows - 1))
        omega
      · show max (min region.2 (f.rows - 1)) (min region.1 (f.rows - 1)) < f.rows
        omega

theorem effect_resumeMain (h : d.Ok) (halt : d.state.inAltScreen = true) :
    Effect false d d.resumeMain := by
  obtain ⟨-, saved, hsaved, -⟩ := h.alt halt
  have hlimit : d.mainLimit = saved.scrollbackLimit := by
    unfold mainLimit
    rw [hsaved]
  have hfits := fits_restoreSaved h.fits.toInside saved
  have hstay : Effect false d
      { sheet := restoreSaved d.sheet saved
        state := { d.state with inAltScreen := false, savedGrid := none, savedModes := none } } := by
    have hhist := h.history
    rw [hlimit] at hhist
    refine ⟨⟨hfits, h.pending, hhist, fun _ => rfl, fun hf => ?_, h.title,
      h.titleStack⟩, hlimit.symm, [], 0, ?_⟩
    · simp at hf
    · exact ⟨by simp [restoreSaved, Sheet.fitCols, Sheet.fitRows],
        by simp [restoreSaved, Sheet.fitCols, Sheet.fitRows], rfl, Nat.zero_le _,
        fun hne => absurd rfl hne⟩
  unfold resumeMain
  rw [hsaved]
  cases d.state.savedModes with
  | none => exact hstay
  | some modes =>
      exact hstay.trans (.withFrame hstay.ok (f := fun f => { f with modes }) (Frame.moves_modes ..))

theorem effect_resumeRegion (h : d.Ok) (hmain : d.state.inAltScreen = false) :
    Effect false d d.resumeRegion := by
  have h₁ := Effect.withFrame h (f := (restoreRegion · d.state.savedScrollRegion))
    (moves_restoreRegion ..)
  have h₂ := h₁.trans (effect_compactStyles h₁.ok none)
  refine h₂.trans ⟨⟨h₂.ok.fits, h₂.ok.pending, h₂.ok.history, h₂.ok.main, fun halt => ?_,
    h₂.ok.title, h₂.ok.titleStack⟩, rfl, [], 0, .refl _ _⟩
  exact absurd (hmain.symm.trans halt) (by simp)

theorem effect_exitAltScreen (h : d.Ok) (restore : Bool) :
    Effect false d (d.exitAltScreen restore) := by
  unfold exitAltScreen
  split
  next => exact .refl h
  next hstay =>
    have halt : d.state.inAltScreen = true := by simpa using hstay
    have h₁ := effect_resumeMain h halt
    split
    · have h₂ := h₁.trans (effect_restoreCursor h₁.ok d.resumeInvalid)
      refine h₂.trans (effect_resumeRegion h₂.ok ?_)
      unfold restoreCursor
      dsimp only
      split <;> rfl
    · exact h₁.trans (effect_resumeRegion h₁.ok rfl)

/-! ### Printing -/

theorem effect_withModes (h : d.Ok) (f : TerminalModes → TerminalModes) :
    Effect false d (d.withModes f) :=
  .withFrame h (d.sheet.toFrame.moves_modes _)

/-- A change of the state that leaves the alternate screen and the titles alone. -/
theorem effect_withState (h : d.Ok) {f : ScreenState SavedSheet → ScreenState SavedSheet}
    (hf : ∀ s, (f s).inAltScreen = s.inAltScreen ∧ (f s).savedGrid = s.savedGrid ∧
      (f s).savedScrollRegion = s.savedScrollRegion ∧ (f s).title = s.title ∧
      (f s).titleStack = s.titleStack) : Effect false d (d.withState f) := by
  obtain ⟨halt, hsaved, hregion, htitle, hstack⟩ := hf d.state
  refine .of_state h halt hsaved hregion ?_ ?_
  · rw [htitle]
    exact h.title
  · rw [hstack]
    exact h.titleStack

theorem effect_pushPassthrough (h : d.Ok) (data : Bytes) :
    Effect false d (d.withState (·.pushPassthrough data)) := by
  refine effect_withState h fun s => ?_
  unfold ScreenState.pushPassthrough
  split_ifs <;> exact ⟨rfl, rfl, rfl, rfl, rfl⟩

theorem effect_pushResponse (h : d.Ok) (data : Bytes) :
    Effect false d (d.withState (·.pushResponse data)) := by
  refine effect_withState h fun s => ?_
  unfold ScreenState.pushResponse
  split_ifs <;> exact ⟨rfl, rfl, rfl, rfl, rfl⟩

theorem effect_handleCombiningMark (h : d.Ok) (c : Char) :
    Effect false d (d.handleCombiningMark c) := by
  unfold handleCombiningMark
  dsimp only
  split_ifs
  · exact .refl h
  · exact .modifyLine h _ fun line hline => hline
  · exact .refl h

theorem effect_performDeferredWrap (h : d.Ok) : Effect false d d.performDeferredWrap := by
  have hhome : Effect false d
      (d.withFrame fun f => { f with wrapPending := false, cursorX := 0 }) :=
    .withFrame h (Frame.moves_return _)
  exact hhome.trans (effect_lineFeed hhome.ok)

theorem effect_wideAtMargin (h : d.Ok) (width : Nat) :
    ∀ d' ∈ d.wideAtMargin width, Effect false d d' := by
  intro d' hd'
  have hblank := effect_blankCell h
  have hpad : Effect false d (d.blankCell.2.withSheet fun v =>
      v.modifyLine v.cursorY (·.set v.cursorX d.blankCell.1)) :=
    hblank.trans (.modifyLine hblank.ok _ fun line hline => by simpa using hline)
  unfold wideAtMargin at hd'
  split_ifs at hd' <;> cases hd'
  · exact hpad.trans (effect_performDeferredWrap hpad.ok)
  · exact .refl h

theorem moves_advance (f : Frame) (width : Nat) : f.Moves (advance f width) := by
  have := f.cols_pos
  unfold advance
  dsimp only
  split_ifs with hlt
  · refine .of_cursor rfl rfl rfl rfl rfl rfl rfl rfl fun h => ⟨?_, h.cursorY⟩
    show f.cols - 1 < f.cols
    omega
  · refine .of_cursor rfl rfl rfl rfl rfl rfl rfl rfl fun h => ⟨?_, h.cursorY⟩
    show (f.cursorX + width) % 65536 < f.cols
    omega

theorem effect_putChar (h : d.Ok) (c : Char) (width : Nat) : Effect false d (d.putChar c width) := by
  have hintern := effect_internWithGc h d.state.currentStyle
  unfold putChar
  dsimp only
  generalize (d.internWithGc d.state.currentStyle).1 = styleId
  generalize (d.internWithGc d.state.currentStyle).2 = d at hintern
  have hput := Effect.modifyLine hintern.ok d.sheet.cursorY
    (f := (·.put d.sheet.cols d.sheet.cursorX { c, styleId, width := width % 256 }))
    fun line hline => by simpa using hline
  exact hintern.trans (hput.trans (.withFrame hput.ok (f := (advance · width)) (moves_advance ..)))

theorem effect_print (charWidth : Char → Nat) (h : d.Ok) (c : Char) :
    Effect false d (print charWidth d c) := by
  have h₁ : Effect false d (d.withState fun s => { s with lastPrintedChar := c }) :=
    effect_withState h fun s => ⟨rfl, rfl, rfl, rfl, rfl⟩
  unfold print
  refine h₁.trans ?_
  dsimp only
  generalize d.withState _ = d at h₁
  generalize d.sheet.modes.mapCharset c = c
  have h := h₁.ok
  split_ifs with hzero hwrap
  · exact effect_handleCombiningMark h c
  · have h₂ := effect_performDeferredWrap h
    refine h₂.trans ?_
    split
    · exact .refl h₂.ok
    next d' hd' =>
      have h₃ := effect_wideAtMargin h₂.ok _ d' hd'
      exact h₃.trans (effect_putChar h₃.ok c _)
  · split
    · exact .refl h
    next d' hd' =>
      have h₃ := effect_wideAtMargin h _ d' hd'
      exact h₃.trans (effect_putChar h₃.ok c _)

theorem effect_execute (h : d.Ok) (byte : UInt8) : Effect false d (d.execute byte) := by
  have hlf : Effect false d (d.withFrame fun f => { f with wrapPending := false }).lineFeed := by
    have hwrap : Effect false d (d.withFrame fun f => { f with wrapPending := false }) :=
      .withFrame h (Frame.moves_wrap _ false)
    exact hwrap.trans (effect_lineFeed hwrap.ok)
  unfold execute
  split
  · exact .withFrame h (Frame.moves_return _)
  · exact hlf
  · exact hlf
  · exact hlf
  · exact .withFrame h (Frame.moves_cursorBack _ 1)
  · refine .withFrame h (.of_cursor rfl rfl rfl rfl rfl rfl rfl rfl fun hf => ⟨?_, hf.cursorY⟩)
    exact Frame.nextTabStop_lt hf _
  · exact effect_withModes h _
  · exact effect_withModes h _
  · exact effect_pushPassthrough h _
  · exact .refl h

/-! ### Control sequences -/

theorem effect_eraseCells (h : d.Ok) (y start stop : Nat) (blank : Cell) :
    Effect false d (d.withSheet (·.eraseCells y start stop blank)) := by
  unfold withSheet Sheet.eraseCells
  dsimp only
  split_ifs
  · exact .modifyLine h y fun line hline => by simpa using hline
  · exact .refl h

theorem effect_eraseRows (h : d.Ok) (startY stopY : Nat) (blank : Cell) :
    Effect false d (d.withSheet (·.eraseRows startY stopY blank)) := by
  unfold withSheet Sheet.eraseRows
  generalize List.range' startY (stopY - startY) = ys
  induction ys generalizing d with
  | nil => exact .refl h
  | cons y ys ih =>
      have h₁ := Effect.modifyLine h y (f := (·.eraseAll blank)) fun line hline => by
        simpa using hline
      exact h₁.trans (ih h₁.ok)

theorem Effect.clear (h : Effect false d d') (hcaptured : d'.sheet.captured = d.sheet.captured) :
    Effect true d (d'.withSheet (·.clearScrollback)) where
  ok :=
    { fits := h.ok.fits.of_lines (p := 0) rfl rfl
      pending := Nat.zero_le _
      history := Nat.zero_le _
      main := h.ok.main
      alt := h.ok.alt
      title := h.ok.title
      titleStack := h.ok.titleStack }
  limit := h.limit
  scrolls := ⟨[], 0, rfl, hcaptured.trans (List.append_nil _).symm, rfl, Nat.zero_le _, fun hne => absurd rfl hne⟩

theorem effect_csiEraseDisplay (h : d.Ok) (mode : Nat) :
    Effect (mode == 3) d (d.csiEraseDisplay mode) := by
  have hblank := effect_blankCell h
  have hcaptured : d.blankCell.2.sheet.captured = d.sheet.captured := by
    obtain ⟨table, htable⟩ := internWithGc_eq d { bg := d.state.currentStyle.bg }
    exact congrArg (·.sheet.captured) htable
  unfold csiEraseDisplay
  dsimp only
  generalize d.blankCell.1 = blank
  generalize d.blankCell.2 = d at hblank hcaptured
  have h := hblank.ok
  split
  · have h₁ := effect_eraseCells h d.sheet.cursorY d.sheet.cursorX d.sheet.cols blank
    exact hblank.trans (h₁.trans (effect_eraseRows h₁.ok _ _ blank))
  · have h₁ := effect_eraseRows h 0 d.sheet.cursorY blank
    exact hblank.trans (h₁.trans (effect_eraseCells h₁.ok _ _ _ blank))
  · exact hblank.trans (effect_eraseRows h _ _ blank)
  · have hclear := hblank.clear hcaptured
    exact hclear.trans (effect_pushPassthrough hclear.ok _)
  next hne =>
    rw [beq_false_of_ne hne]
    exact hblank

theorem effect_csiEraseLine (h : d.Ok) (mode : Nat) : Effect false d (d.csiEraseLine mode) := by
  have hblank := effect_blankCell h
  unfold csiEraseLine
  dsimp only
  split
  · exact hblank.trans (effect_eraseCells hblank.ok _ _ _ _)
  · exact hblank.trans (effect_eraseCells hblank.ok _ _ _ _)
  · exact hblank.trans (effect_eraseCells hblank.ok _ _ _ _)
  · exact hblank

theorem effect_csiEraseCharacter (h : d.Ok) (n : Nat) : Effect false d (d.csiEraseCharacter n) :=
  (effect_blankCell h).trans (effect_eraseCells (effect_blankCell h).ok _ _ _ _)

@[simp] theorem len_blankContinuation (x : Nat) (blank : Cell) (l : Line) :
    (blankContinuation x blank l).len = l.len := by
  unfold blankContinuation
  dsimp only
  split_ifs <;> simp

theorem len_fixDeleted (x : Nat) (blank : Cell) (l : Line) : (fixDeleted x blank l).len = l.len := by
  unfold fixDeleted
  split_ifs <;> simp

theorem len_fixInserted (x : Nat) (blank : Cell) (l : Line) :
    (fixInserted x blank l).len = l.len := by
  unfold fixInserted
  split_ifs <;> simp

theorem len_iterate {f : Line → Line} {cols : Nat} (hf : ∀ l, l.len = cols → (f l).len = cols)
    (n : Nat) {l : Line} (hl : l.len = cols) : (f^[n] l).len = cols := by
  induction n generalizing l with
  | zero => exact hl
  | succ n ih => exact ih (hf l hl)

theorem len_deleteCells {cols x : Nat} (hx : x < cols) (n : Nat) (blank : Cell) {l : Line}
    (hl : l.len = cols) : (deleteCells cols x n blank l).len = cols := by
  unfold deleteCells
  rw [len_fixDeleted]
  refine len_iterate (fun l hl => ?_) _ (by simpa using hl)
  rw [Line.len_push, Line.len_remove _ (by omega)]
  omega

theorem len_insertCells {cols x : Nat} (hx : x < cols) (n : Nat) (blank : Cell) {l : Line}
    (hl : l.len = cols) : (insertCells cols x n blank l).len = cols := by
  unfold insertCells
  rw [len_fixInserted]
  refine len_iterate (fun l hl => ?_) _ (by simpa using hl)
  rw [Line.len_insert _ _ (by rw [Line.len_pop]; omega), Line.len_pop]
  omega

theorem effect_csiDeleteCharacter (h : d.Ok) (n : Nat) :
    Effect false d (d.csiDeleteCharacter n) := by
  have hblank := effect_blankCell h
  exact hblank.trans (.modifyLine hblank.ok _ fun line hline =>
    len_deleteCells hblank.ok.fits.cursorX n _ hline)

theorem effect_csiInsertCharacter (h : d.Ok) (n : Nat) :
    Effect false d (d.csiInsertCharacter n) := by
  have hblank := effect_blankCell h
  exact hblank.trans (.modifyLine hblank.ok _ fun line hline =>
    len_insertCells hblank.ok.fits.cursorX n _ hline)

theorem effect_shiftLines (h : d.Ok) (n : Nat) {out into : Nat} (hout : out < d.sheet.rows)
    (hinto : into < d.sheet.rows) (blank : Cell) :
    Effect false d (d.withSheet (shiftLines · n out into blank)) := by
  induction n generalizing d with
  | zero => exact .refl h
  | succ n ih =>
      have h₁ := Effect.of_lines h (h.fits.shift hout hinto blank) rfl rfl rfl rfl
      exact h₁.trans (ih h₁.ok hout hinto)

theorem effect_csiDeleteLines (h : d.Ok) (n : Nat) : Effect false d (d.csiDeleteLines n) := by
  have hblank := effect_blankCell h
  unfold csiDeleteLines
  dsimp only
  split_ifs with hin
  · have hwrap := Effect.withFrame hblank.ok (f := fun f => { f with wrapPending := false })
      (Frame.moves_wrap _ false)
    have hbottom := hblank.ok.fits.bottom
    exact hblank.trans (hwrap.trans (effect_shiftLines hwrap.ok _ (hin.2.trans_lt hbottom) hbottom _))
  · exact hblank

theorem effect_csiInsertLines (h : d.Ok) (n : Nat) : Effect false d (d.csiInsertLines n) := by
  have hblank := effect_blankCell h
  unfold csiInsertLines
  dsimp only
  split_ifs with hin
  · have hwrap := Effect.withFrame hblank.ok (f := fun f => { f with wrapPending := false })
      (Frame.moves_wrap _ false)
    have hbottom := hblank.ok.fits.bottom
    exact hblank.trans (hwrap.trans (effect_shiftLines hwrap.ok _ hbottom (hin.2.trans_lt hbottom) _))
  · exact hblank

theorem effect_setDecPrivateMode (h : d.Ok) (mode : Nat) (enable : Bool) :
    Effect false d (d.setDecPrivateMode mode enable) := by
  unfold setDecPrivateMode
  split
  case h_2 =>
    refine .withFrame h ?_
    dsimp only
    split_ifs
    · refine .of_cursor rfl rfl rfl rfl rfl rfl rfl rfl fun hf => ⟨Frame.cols_pos _, ?_⟩
      exact hf.top.trans_lt hf.bottom
    · exact Frame.moves_modes _ _
  case h_4 => exact .withFrame h (.of_cursor rfl rfl rfl rfl rfl rfl rfl rfl fun hf => ⟨hf.cursorX, hf.cursorY⟩)
  case h_11 =>
    split_ifs
    · exact effect_saveCursor h _ _
    · exact effect_restoreCursor h _
  case h_13 =>
    split_ifs
    · exact effect_enterAltScreen h _
    · exact effect_exitAltScreen h _
  case h_14 =>
    split_ifs
    · exact effect_enterAltScreen h _
    · exact effect_exitAltScreen h _
  case h_15 =>
    split_ifs
    · exact effect_enterAltScreen h _
    · exact effect_exitAltScreen h _
  case h_16 => exact .refl h
  all_goals exact effect_withModes h _

theorem effect_csiSetDecPrivateMode (h : d.Ok) (ps : List (List Nat)) (enable : Bool) :
    Effect false d (d.csiSetDecPrivateMode ps enable) := by
  unfold csiSetDecPrivateMode
  induction ps generalizing d with
  | nil => exact .refl h
  | cons p ps ih =>
      cases p with
      | nil => exact ih h
      | cons mode rest =>
          have h₁ := effect_setDecPrivateMode h mode enable
          exact h₁.trans (ih h₁.ok)

/-! ### Text -/

theorem byteLen_cons (c : Char) (text : List Char) :
    byteLen (c :: text) = c.utf8Size + byteLen text := by
  simp [byteLen, encodeUtf8, String.length_utf8EncodeChar]

theorem byteLen_of_byteSlice? {text cut : List Char} {n : Nat} (h : byteSlice? text n = some cut) :
    byteLen cut = n := by
  induction text, n using byteSlice?.induct generalizing cut with
  | case1 text =>
      cases text <;> cases h <;> rfl
  | case2 n => cases h
  | case3 c text n hle ih =>
      rw [byteSlice?, if_pos hle] at h
      obtain ⟨rest, hrest, rfl⟩ := Option.map_eq_some_iff.mp h
      rw [byteLen_cons, ih hrest]
      omega
  | case4 c text n hle =>
      rw [byteSlice?, if_neg hle] at h
      cases h

theorem byteSlice?_self (text : List Char) : byteSlice? text (byteLen text) = some text := by
  induction text with
  | nil => rfl
  | cons c text ih =>
      have hpos := c.utf8Size_pos
      rw [byteLen_cons]
      obtain ⟨n, hn⟩ : ∃ n, c.utf8Size + byteLen text = n + 1 := ⟨_, (Nat.succ_pred (by omega)).symm⟩
      rw [hn, byteSlice?, if_pos (by omega), show n + 1 - c.utf8Size = byteLen text by omega, ih]
      rfl

theorem truncate?_of_le {text : List Char} (h : byteLen text ≤ maxTitle) :
    truncate? text maxTitle = some text := by
  unfold truncate?
  split_ifs with hle
  · rw [← Nat.le_antisymm h hle]
    exact byteSlice?_self text
  · rfl

theorem effect_csiWindow (h : d.Ok) (cmd scope : Nat) : Effect false d (d.csiWindow cmd scope) := by
  unfold csiWindow
  split_ifs with hscope hpush hpop
  · rw [truncate?_of_le h.title]
    refine .of_state h rfl rfl rfl h.title fun title htitle => ?_
    rcases List.mem_cons.mp htitle with rfl | hmem
    · exact h.title
    · exact h.titleStack title hmem
  · split
    next title rest hstack =>
      have hall := h.titleStack
      rw [hstack] at hall
      exact .of_state h rfl rfl rfl (hall title (by simp)) fun t ht => hall t (by simp [ht])
    next => exact .refl h
  · exact .refl h
  · exact .refl h

theorem effect_csiDispatch (charWidth : Char → Nat) (h : d.Ok) (ps : List (List Nat))
    (intermediates : Bytes) (action : Char) :
    Effect (action == 'J' && param ps 0 0 == 3) d
      (d.csiDispatch charWidth ps intermediates action) := by
  by_cases hJ : action = 'J'
  · subst hJ
    exact effect_csiEraseDisplay h _
  rw [show (action == 'J' && param ps 0 0 == 3) = false by simp [hJ]]
  have hmove : ∀ f : Frame → Frame, (∀ g : Frame, g.Moves (f g)) →
      Effect false d (d.withFrame f) := fun f hf => .withFrame h (hf _)
  unfold csiDispatch
  dsimp only
  split
  · exact hmove _ (Frame.moves_cursorUp · _)
  · exact hmove _ (Frame.moves_cursorDown · _)
  · exact hmove _ (Frame.moves_cursorForward · _)
  · exact hmove _ (Frame.moves_cursorBack · _)
  · exact hmove _ fun g => (g.moves_cursorDown _).trans (Frame.moves_home _)
  · exact hmove _ fun g => (g.moves_cursorUp _).trans (Frame.moves_home _)
  · exact hmove _ (Frame.moves_cursorHorizontalAbsolute · _)
  · exact hmove _ (Frame.moves_cursorPosition · _ _)
  · exact hmove _ (Frame.moves_cursorPosition · _ _)
  · exact hmove _ (Frame.moves_linePositionAbsolute · _)
  · exact absurd rfl hJ
  · exact effect_csiEraseLine h _
  · exact effect_csiEraseCharacter h _
  · exact effect_csiDeleteCharacter h _
  · exact effect_csiInsertCharacter h _
  · exact .iterate (fun d hd => effect_print charWidth hd _) h _
  · exact effect_withState h fun s => ⟨rfl, rfl, rfl, rfl, rfl⟩
  · split_ifs
    · exact effect_pushResponse h _
    · exact .refl h
  · split_ifs
    · exact effect_pushResponse h _
    · exact effect_pushResponse h _
    · exact .refl h
  · split_ifs
    · exact effect_withModes h _
    · exact .refl h
  · exact .iterate (fun d hd => effect_scrollUp hd) h _
  · split_ifs
    · exact .iterate (fun d hd => effect_scrollDown hd) h _
    · exact .refl h
  · exact effect_csiDeleteLines h _
  · exact effect_csiInsertLines h _
  · split_ifs
    · exact hmove _ (Frame.moves_setScrollingRegion · _ _)
    · exact .refl h
  · split_ifs
    · exact effect_saveCursor h _ _
    · exact .refl h
  · split_ifs
    · exact effect_restoreCursor h _
    · exact .refl h
  · split_ifs
    · split
      · exact hmove _ fun g => g.moves_tabs (by simp)
      · exact hmove _ fun g => g.moves_tabs (by simp)
      · exact .refl h
    · exact .refl h
  · exact effect_csiWindow h _ _
  · split_ifs
    · exact effect_csiSetDecPrivateMode h _ _
    · exact .refl h
  · split_ifs
    · exact effect_csiSetDecPrivateMode h _ _
    · exact .refl h
  · exact .refl h

/-! ### Escape sequences and operating system commands -/

theorem length_defaultTabStops (cols : Nat) : (defaultTabStops cols).length = cols := by
  simp [defaultTabStops]

theorem inside_resetFrame (f : Frame) (limit : Nat) : (resetFrame f limit).Inside where
  cursorX := f.cols_pos
  cursorY := f.rows_pos
  top := Nat.zero_le _
  bottom := by
    have := f.rows_pos
    show f.rows - 1 < f.rows
    omega
  tabs := length_defaultTabStops _
  slots := fun id hid => by simp [resetFrame] at hid

theorem effect_fullReset (h : d.Ok) : Effect true d d.fullReset := by
  have hreset : Effect false d
      { sheet := d.sheet.withFrame (resetFrame · d.mainLimit), state := d.state.reset } := by
    refine ⟨⟨⟨inside_resetFrame _ _, h.fits.rows, h.fits.cols⟩, h.pending, h.history, fun _ => rfl,
      fun halt => ?_, Nat.zero_le _, fun title htitle => ?_⟩, rfl, [], 0, ?_⟩
    · simp [ScreenState.reset] at halt
    · simp [ScreenState.reset] at htitle
    · exact ⟨by simp [Sheet.withFrame], by simp [Sheet.withFrame, resetFrame], rfl, Nat.zero_le _,
        fun hne => absurd rfl hne⟩
  have herase := hreset.trans (effect_eraseRows hreset.ok 0 d.sheet.rows {})
  have hclear := herase.clear (by simp [withSheet, Sheet.withFrame, resetFrame])
  exact hclear.trans (effect_pushPassthrough hclear.ok _)

theorem effect_putCells (h : d.Ok) (y : Nat) (xs : List Nat) (cell : Cell) :
    Effect false d (d.withSheet fun v => xs.foldl (fun v x => v.putCell x y cell) v) := by
  induction xs generalizing d with
  | nil => exact .refl h
  | cons x xs ih =>
      have h₁ := Effect.modifyLine h y (f := (·.put d.sheet.cols x cell)) fun line hline => by
        simpa using hline
      exact h₁.trans (ih h₁.ok)

theorem effect_alignmentPattern (h : d.Ok) : Effect false d d.alignmentPattern := by
  have hhome : Effect false d (d.withFrame fun f =>
      { f.resetScrollRegion with cursorX := 0, cursorY := 0, wrapPending := false }) :=
    .withFrame h (Frame.moves_origin _)
  have hintern := hhome.trans (effect_internWithGc hhome.ok {})
  refine hintern.trans ?_
  have hall : ∀ (ys : List Nat) (d : Display) (id : Nat), d.Ok → Effect false d (d.withSheet fun v =>
      ys.foldl (fun v y => (List.range v.cols).foldl
        (fun v x => v.putCell x y { c := 'E', styleId := id }) v) v) := by
    intro ys
    induction ys with
    | nil => exact fun d _ hd => .refl hd
    | cons y ys ih =>
        intro d id hd
        have h₁ := effect_putCells hd y (List.range d.sheet.cols) { c := 'E', styleId := id }
        exact h₁.trans (ih _ id h₁.ok)
  exact hall _ _ _ hintern.ok

theorem effect_reverseIndex (h : d.Ok) : Effect false d d.reverseIndex := by
  unfold reverseIndex
  split_ifs
  · exact effect_scrollDown h
  · refine .withFrame h (.of_cursor rfl rfl rfl rfl rfl rfl rfl rfl fun hf => ⟨hf.cursorX, ?_⟩)
    have := hf.cursorY
    show d.sheet.cursorY - 1 < d.sheet.rows
    omega
  · exact .refl h

theorem effect_escDispatch (h : d.Ok) (intermediates : Bytes) (byte : UInt8) :
    Effect (intermediates.isEmpty && byte == 0x63) d (d.escDispatch intermediates byte) := by
  have hlf : ∀ f : Frame → Frame, (∀ g : Frame, g.Moves (f g)) →
      Effect false d (d.withFrame f).lineFeed := by
    intro f hf
    have h₁ : Effect false d (d.withFrame f) := .withFrame h (hf _)
    exact h₁.trans (effect_lineFeed h₁.ok)
  by_cases hreset : intermediates = [] ∧ byte = 0x63
  · obtain ⟨rfl, rfl⟩ := hreset
    exact effect_fullReset h
  rw [show (intermediates.isEmpty && byte == 0x63) = false by
    simpa [List.isEmpty_iff] using hreset]
  unfold escDispatch
  split
  · exact .withFrame h (Frame.moves_tabs _ (by simp))
  · exact hlf _ (Frame.moves_wrap · false)
  · exact hlf _ Frame.moves_return
  · exact effect_reverseIndex h
  · exact effect_saveCursor h _ _
  · exact effect_restoreCursor h _
  next hi hb =>
    refine absurd ⟨by simpa using hi, ?_⟩ hreset
    exact UInt8.toNat_inj.mp hb
  · exact effect_withModes h _
  · exact effect_withModes h _
  · exact effect_withModes h _
  · exact effect_withModes h _
  · exact effect_withModes h _
  · exact effect_withModes h _
  · exact effect_alignmentPattern h
  · exact .refl h

theorem effect_oscDispatch (h : d.Ok) (params : List Bytes) (bell : Bool) :
    Effect false d (d.oscDispatch params bell) := by
  have htitle : ∀ title : List Char, Effect false d (d.withState fun s => { s with
      title := if byteLen title ≤ maxTitle then title else (byteSlice? title maxTitle).getD [] }) := by
    intro title
    refine .of_state h rfl rfl rfl ?_ h.titleStack
    show byteLen (if _ then _ else _) ≤ maxTitle
    split_ifs with hle
    · exact hle
    · cases hcut : byteSlice? title maxTitle with
      | none => exact Nat.zero_le _
      | some cut => exact (byteLen_of_byteSlice? hcut).le
  have hnote : Effect false d (d.withState (·.pushNotification (oscBytes params bell))) :=
    effect_withState h fun s => ⟨rfl, rfl, rfl, rfl, rfl⟩
  unfold oscDispatch
  split
  · exact .refl h
  · split
    · split
      · exact htitle _
      · exact .refl h
    · split
      · exact htitle _
      · exact .refl h
    · exact hnote
    · exact hnote
    · exact hnote
    · exact effect_pushPassthrough h _

/-! ### Callbacks and resizing -/

end Display

def Callback.clears : Callback → Bool
  | .csiDispatch params _ action => action == 'J' && param params 0 0 == 3
  | .escDispatch intermediates byte => intermediates.isEmpty && byte == 0x63
  | _ => false

namespace Display

variable {d : Display}

theorem effect_callback (charWidth : Char → Nat) (h : d.Ok) (c : Callback) :
    Effect c.clears d (d.callback charWidth c) := by
  cases c with
  | print c => exact effect_print charWidth h c
  | execute byte => exact effect_execute h byte
  | csiDispatch params intermediates action =>
      exact effect_csiDispatch charWidth h params intermediates action
  | escDispatch intermediates byte => exact effect_escDispatch h intermediates byte
  | oscDispatch params bell => exact effect_oscDispatch h params bell

/-! ### Resizing -/

theorem fits_resize (v : Sheet) (size : TerminalSize) (keepWrap : Bool)
    (hslots : v.styleTable.SlotsOk) : (v.resize size keepWrap).Fits where
  cursorX := by
    have := size.cols_pos
    show (if v.cursorX ≥ size.cols then size.cols - 1 else v.cursorX) < size.cols
    split_ifs <;> omega
  cursorY := by
    have := size.rows_pos
    show (if v.cursorY ≥ size.rows then size.rows - 1 else v.cursorY) < size.rows
    split_ifs <;> omega
  top := Nat.zero_le _
  bottom := by
    have := size.rows_pos
    show size.rows - 1 < size.rows
    omega
  tabs := length_defaultTabStops _
  slots := hslots
  rows := by
    simp only [Sheet.resize, Sheet.fitCols, Sheet.fitRows, List.length_map, List.length_append,
      List.length_take, List.length_replicate]
    show min size.rows _ + (size.rows - _) = size.rows
    omega
  cols := by
    intro line hline
    simp only [Sheet.resize, Sheet.fitCols, List.mem_map] at hline
    obtain ⟨line, -, rfl⟩ := hline
    exact Line.len_resize _ _ _

/-- What the steps of a resize keep on the way, while the lines do not fit yet. -/
structure Kept (v v' : Sheet) : Prop where
  limit : v'.scrollbackLimit = v.scrollbackLimit
  table : v'.styleTable = v.styleTable
  pending : v.pendingStart ≤ v.history.length → v'.pendingStart ≤ v'.history.length
  history : v.history.length ≤ v.scrollbackLimit → v'.history.length ≤ v.scrollbackLimit

theorem Kept.refl (v : Sheet) : Kept v v := ⟨rfl, rfl, id, id⟩

theorem Kept.trans {v v' v'' : Sheet} (h : Kept v v') (h' : Kept v' v'') : Kept v v'' where
  limit := h'.limit.trans h.limit
  table := h'.table.trans h.table
  pending hp := h'.pending (h.pending hp)
  history hh := by
    have := h'.history (by rw [h.limit]; exact h.history hh)
    rwa [h.limit] at this

theorem kept_growRows (v : Sheet) (rows : Nat) : Kept v (v.growRows rows) := by
  refine ⟨rfl, rfl, fun hp => ?_, fun hh => ?_⟩
  · simp only [Sheet.growRows, Sheet.restoreScrollback, List.length_take]
    omega
  · simp only [Sheet.growRows, Sheet.restoreScrollback, List.length_take]
    omega

theorem kept_capture (v : Sheet) : Kept v v.capture := by
  have hlen : (v.lines.take 1).length ≤ 1 := by
    rw [List.length_take]
    omega
  unfold Sheet.capture
  split_ifs with hfull
  · refine ⟨rfl, rfl, fun hp => ?_, fun hh => ?_⟩
    · show v.pendingStart - 1 ≤ ((v.history ++ v.lines.take 1).tail).length
      rw [List.length_tail, List.length_append]
      omega
    · show ((v.history ++ v.lines.take 1).tail).length ≤ v.scrollbackLimit
      rw [List.length_tail, List.length_append]
      omega
  · refine ⟨rfl, rfl, fun hp => ?_, fun hh => ?_⟩
    · show v.pendingStart ≤ (v.history ++ v.lines.take 1).length
      rw [List.length_append]
      omega
    · show (v.history ++ v.lines.take 1).length ≤ v.scrollbackLimit
      rw [List.length_append]
      omega

theorem kept_iterate_capture (v : Sheet) (n : Nat) : Kept v (Sheet.capture^[n] v) := by
  induction n generalizing v with
  | zero => exact .refl v
  | succ n ih => exact (kept_capture v).trans (ih v.capture)

theorem kept_chopBlankBottomRows (v : Sheet) (max : Nat) :
    Kept v (v.chopBlankBottomRows max).2 := by
  induction max generalizing v with
  | zero => exact .refl v
  | succ max ih =>
      unfold Sheet.chopBlankBottomRows
      split_ifs
      · obtain ⟨hlimit, htable, hpending, hhistory⟩ := ih { v with lines := v.lines.dropLast }
        exact ⟨hlimit, htable, hpending, hhistory⟩
      · exact .refl v

theorem kept_shrinkRows (v : Sheet) (rows : Nat) : Kept v (v.shrinkRows rows) := by
  obtain ⟨hlimit, htable, hpending, hhistory⟩ := (kept_chopBlankBottomRows v (v.rows - rows)).trans
    (kept_iterate_capture _
      (min (v.rows - rows - (v.chopBlankBottomRows (v.rows - rows)).1) v.cursorY))
  exact ⟨hlimit, htable, hpending, hhistory⟩

theorem kept_resizeGrid (v : Sheet) (inAlt : Bool) (cols rows : UInt16) (keepWrap : Bool) :
    Kept v (v.resizeGrid inAlt cols rows keepWrap) ∧
      (inAlt = true → (v.resizeGrid inAlt cols rows keepWrap).history = v.history) := by
  have hgrow : Kept v (if inAlt = false ∧ v.rows < rows.toNat then v.growRows rows.toNat else v) := by
    split_ifs
    · exact kept_growRows v _
    · exact .refl v
  refine ⟨?_, fun halt => ?_⟩
  · unfold Sheet.resizeGrid
    dsimp only
    generalize (if inAlt = false ∧ v.rows < rows.toNat then v.growRows rows.toNat else v) = w at hgrow
    refine hgrow.trans ?_
    split_ifs
    · obtain ⟨hlimit, htable, hpending, hhistory⟩ := kept_shrinkRows w rows.toNat
      exact ⟨hlimit, htable, hpending, hhistory⟩
    · exact ⟨rfl, rfl, id, id⟩
  · subst halt
    rfl

theorem mainLimit_resize (d : Display) (cols rows : UInt16) (keepWrap : Bool) :
    (d.resize cols rows keepWrap).mainLimit = d.mainLimit := by
  have hkept := (kept_resizeGrid d.sheet d.state.inAltScreen cols rows keepWrap).1
  unfold mainLimit
  rw [show (d.resize cols rows keepWrap).sheet.scrollbackLimit = d.sheet.scrollbackLimit
    from hkept.limit]
  rfl

theorem ok_resize (h : d.Ok) (cols rows : UInt16) (keepWrap : Bool) :
    (d.resize cols rows keepWrap).Ok := by
  obtain ⟨hkept, halt⟩ := kept_resizeGrid d.sheet d.state.inAltScreen cols rows keepWrap
  have hlimit := hkept.limit
  have hmain := mainLimit_resize d cols rows keepWrap
  refine ⟨?_, hkept.pending h.pending, ?_, h.main, ?_, h.title, h.titleStack⟩
  · refine fits_resize _ _ _ ?_
    exact (show (d.resize cols rows keepWrap).sheet.styleTable.SlotsOk from
      hkept.table ▸ h.fits.slots)
  · rw [hmain]
    cases hs : d.state.inAltScreen with
    | false =>
        rw [mainLimit_of_main h hs]
        exact hkept.history (mainLimit_of_main h hs ▸ h.history)
    | true =>
        show (d.sheet.resizeGrid _ cols rows keepWrap).history.length ≤ _
        rw [halt hs]
        exact h.history
  · intro hs
    exact ⟨hlimit.trans (h.alt hs).1, (h.alt hs).2⟩

end Display

end QuorumDispatch.Screen
