import QuorumDispatch.Screen.Effects
import QuorumDispatch.Screen.Refine

/-!
The performer does what the display says: each callback on a terminal that shows a
display in order returns, and the terminal then shows the display after the callback.
-/

namespace QuorumDispatch.Screen

open Lib

def SavedGrid.shown (saved : SavedGrid) : SavedSheet where
  lines := saved.visibleCells.map Row.toLine
  scrollbackLimit := saved.scrollbackLimit
  saveCols := saved.saveCols

def ScreenState.map {S T : Type} (f : S → T) (s : ScreenState S) : ScreenState T where
  currentStyle := s.currentStyle
  inAltScreen := s.inAltScreen
  savedGrid := s.savedGrid.map f
  savedCursorState := s.savedCursorState
  savedModes := s.savedModes
  savedScrollRegion := s.savedScrollRegion
  pendingResponses := s.pendingResponses
  pendingPassthrough := s.pendingPassthrough
  queuedNotifications := s.queuedNotifications
  title := s.title
  titleStack := s.titleStack
  lastPrintedChar := s.lastPrintedChar
  nextAltEpoch := s.nextAltEpoch

structure Terminal.Shows (t : Terminal) (d : Display) : Prop where
  grid : t.grid.Shows d.sheet
  state : t.state.map SavedGrid.shown = d.state

namespace Terminal

variable {t : Terminal} {d : Display}

theorem Shows.withGrid? (h : t.Shows d) {f : Grid → Option Grid} {v : Sheet}
    (hf : Returns (f t.grid) (·.Shows v)) :
    Returns (t.withGrid? f) (·.Shows { d with sheet := v }) :=
  .bind hf fun _ hg => .pure ⟨hg, h.state⟩

theorem Shows.withGrid (h : t.Shows d) {f : Grid → Grid} {v : Sheet} (hf : (f t.grid).Shows v) :
    (t.withGrid f).Shows { d with sheet := v } :=
  ⟨hf, h.state⟩

theorem Shows.withFrame (h : t.Shows d) (f : Frame → Frame) :
    (t.withGrid (·.withFrame f)).Shows (d.withFrame f) :=
  h.withGrid (h.grid.withFrame f)

theorem Shows.moveCursor (h : t.Shows d) (f : Frame → Frame) :
    (t.moveCursor f).Shows (d.withFrame f) :=
  h.withGrid (h.grid.moveCursor f)

theorem Shows.withModes (h : t.Shows d) (f : TerminalModes → TerminalModes) :
    (t.withModes f).Shows (d.withModes f) :=
  h.withFrame fun g => { g with modes := f g.modes }

theorem Shows.setWrapPending (h : t.Shows d) (b : Bool) :
    (t.withGrid (·.setWrapPending b)).Shows (d.withFrame fun f => { f with wrapPending := b }) :=
  h.withGrid (h.grid.setWrapPending b)

/-- The rule for a change of state that treats the saved grid as it is. -/
theorem Shows.withState (h : t.Shows d) {f : ScreenState SavedGrid → ScreenState SavedGrid}
    {F : ScreenState SavedSheet → ScreenState SavedSheet}
    (hf : ∀ s, (f s).map SavedGrid.shown = F (s.map SavedGrid.shown)) :
    (t.withState f).Shows (d.withState F) :=
  ⟨h.grid, (hf t.state).trans (congrArg F h.state)⟩

theorem Shows.pushPassthrough (h : t.Shows d) (data : Bytes) :
    (t.withState (·.pushPassthrough data)).Shows (d.withState (·.pushPassthrough data)) := by
  refine h.withState fun s => ?_
  unfold ScreenState.pushPassthrough
  show ScreenState.map _ (if _ then _ else _) = if s.pendingPassthrough.length < _ then _ else _
  split_ifs <;> rfl

theorem Shows.pushResponse (h : t.Shows d) (data : Bytes) :
    (t.withState (·.pushResponse data)).Shows (d.withState (·.pushResponse data)) := by
  refine h.withState fun s => ?_
  unfold ScreenState.pushResponse
  show ScreenState.map _ (if _ then _ else _) = if s.pendingResponses.length < _ then _ else _
  split_ifs <;> rfl

theorem Shows.frame (h : t.Shows d) : t.grid.toFrame = d.sheet.toFrame := h.grid.frame

/-- The rules for a condition that both sides share. -/
theorem Shows.ite {c : Prop} [Decidable c] {t₁ t₂ : Terminal} {d₁ d₂ : Display}
    (h₁ : t₁.Shows d₁) (h₂ : t₂.Shows d₂) : (if c then t₁ else t₂).Shows (if c then d₁ else d₂) := by
  split_ifs
  · exact h₁
  · exact h₂

theorem Shows.ite? {c : Prop} [Decidable c] {x₁ x₂ : Option Terminal} {d₁ d₂ : Display}
    (h₁ : Returns x₁ (·.Shows d₁)) (h₂ : Returns x₂ (·.Shows d₂)) :
    Returns (if c then x₁ else x₂) (·.Shows (if c then d₁ else d₂)) := by
  split_ifs
  · exact h₁
  · exact h₂

/-! ### Styles -/

theorem Shows.intern? (h : t.Shows d) (hd : d.Ok) (style : Style) :
    Returns (t.intern? style) fun r =>
      r.1 = (d.intern style).1 ∧ r.2.Shows (d.intern style).2 := by
  obtain ⟨⟨id, table⟩, hr, -⟩ := hd.fits.slots.intern style
  have htable : t.grid.styleTable = d.sheet.styleTable := congrArg Frame.styleTable h.frame
  unfold Terminal.intern? Display.intern
  rw [htable, hr]
  refine .bind_eq rfl (.pure ⟨rfl, ?_⟩)
  exact h.withFrame fun f => { f with styleTable := table }

theorem map_toLine_scrollbackRows {g : Grid} {v : Sheet} (h : g.Shows v) :
    g.scrollbackRows.map Row.toLine = v.history := by
  rw [Grid.scrollbackRows, List.map_take, h.cells, h.boundary, List.take_left]

theorem map_toLine_visibleRows {g : Grid} {v : Sheet} (h : g.Shows v) (hv : v.Fits) :
    g.visibleRows.map Row.toLine = v.lines := by
  rw [Grid.visibleRows, List.map_take, List.map_drop, h.cells, h.boundary, List.drop_left,
    h.rows_eq, List.take_of_length_le hv.rows.le]

/-- All the rows that are kept, those of a screen set aside included. -/
theorem map_toLine_rows {g : Grid} {v : Sheet} (h : g.Shows v) (hv : v.Fits)
    (saved : Option SavedGrid) :
    (g.scrollbackRows ++ g.visibleRows ++
      (saved.map SavedGrid.visibleCells).getD []).map Row.toLine =
      v.history ++ v.lines ++ ((saved.map SavedGrid.shown).map SavedSheet.lines).getD [] := by
  rw [List.map_append, List.map_append, map_toLine_scrollbackRows h, map_toLine_visibleRows h hv]
  cases saved <;> rfl

theorem compactStyles_shows {g : Grid} {v : Sheet} (h : g.Shows v) (hv : v.Fits)
    (saved : Option SavedGrid) :
    (compactStyles g saved).Shows (Display.compactStyles v (saved.map SavedGrid.shown)) := by
  refine ⟨?_, h.cells, h.boundary⟩
  show ({ g.toFrame with styleTable := compactTable g.styleTable _ } : Frame) = _
  rw [map_toLine_rows h hv, h.frame]
  rfl

theorem Shows.internWithGc? (h : t.Shows d) (hd : d.Ok) (style : Style) :
    Returns (t.internWithGc? style) fun r =>
      r.1 = (d.internWithGc style).1 ∧ r.2.Shows (d.internWithGc style).2 := by
  have hd₁ := (Display.effect_intern hd style).ok
  unfold Terminal.internWithGc? Display.internWithGc
  refine .bind (h.intern? hd style) fun ⟨id, t₁⟩ ⟨hid, h₁⟩ => ?_
  dsimp only at hid h₁ ⊢
  have htable : t₁.grid.styleTable = (d.intern style).2.sheet.styleTable :=
    congrArg Frame.styleTable h₁.frame
  rw [hid, htable]
  split_ifs with hfull
  · have hc := compactStyles_shows h₁.grid hd₁.fits t₁.state.savedGrid
    rw [show t₁.state.savedGrid.map SavedGrid.shown = (d.intern style).2.state.savedGrid from
      congrArg ScreenState.savedGrid h₁.state] at hc
    have h₂ := h₁.withGrid (f := (compactStyles · t₁.state.savedGrid)) hc
    exact h₂.intern? (Display.effect_compactStyles hd₁ _).ok style
  · exact .pure ⟨rfl, h₁⟩

-- below, the two internings are used only through the result above
attribute [local irreducible] Display.internWithGc Terminal.internWithGc?

theorem Shows.blankCell? (h : t.Shows d) (hd : d.Ok) :
    Returns t.blankCell? fun r => r.1 = d.blankCell.1 ∧ r.2.Shows d.blankCell.2 := by
  have hstyle : t.state.currentStyle = d.state.currentStyle :=
    congrArg ScreenState.currentStyle h.state
  unfold Terminal.blankCell?
  rw [hstyle]
  refine .bind (h.internWithGc? hd _) fun ⟨id, t₁⟩ ⟨hid, h₁⟩ => .pure ⟨?_, h₁⟩
  dsimp only at hid ⊢
  rw [hid]
  rfl

/-- The rule for an operation that fills with blanks. -/
theorem Shows.withBlank? (h : t.Shows d) (hd : d.Ok) {f : Cell → Terminal → Option Terminal}
    {F : Cell → Display → Display}
    (hf : ∀ blank t d, t.Shows d → d.Ok → Returns (f blank t) (·.Shows (F blank d))) :
    Returns (t.blankCell? >>= fun r => f r.1 r.2) (·.Shows (F d.blankCell.1 d.blankCell.2)) := by
  refine .bind (h.blankCell? hd) fun ⟨blank, t₁⟩ ⟨hblank, h₁⟩ => ?_
  dsimp only at hblank ⊢
  rw [hblank]
  exact hf _ _ _ h₁ (Display.effect_blankCell hd).ok

/-! ### Scrolling -/

theorem Shows.scrollUp? (h : t.Shows d) (hd : d.Ok) :
    Returns t.scrollUp? (·.Shows d.scrollUp) := by
  refine h.withBlank? hd (f := fun blank t => t.withGrid? (·.scrollUp? t.state.inAltScreen blank))
    (F := fun blank d => d.withSheet (·.scrollUp d.state.inAltScreen blank)) ?_
  intro blank t d h hd
  rw [show t.state.inAltScreen = d.state.inAltScreen from congrArg ScreenState.inAltScreen h.state]
  exact h.withGrid? (h.grid.scrollUp? hd.fits _ blank)

theorem Shows.scrollDown? (h : t.Shows d) (hd : d.Ok) :
    Returns t.scrollDown? (·.Shows d.scrollDown) :=
  h.withBlank? hd (f := fun blank t => t.withGrid? (·.scrollDown? blank))
    (F := fun blank d => d.withSheet (·.scrollDown blank))
    fun blank _ _ h hd => h.withGrid? (h.grid.scrollDown? hd.fits blank)

theorem Shows.lineFeed? (h : t.Shows d) (hd : d.Ok) :
    Returns t.lineFeed? (·.Shows d.lineFeed) := by
  have hy : t.grid.cursorY = d.sheet.cursorY := congrArg Frame.cursorY h.frame
  have hbottom : t.grid.scrollBottom = d.sheet.scrollBottom := congrArg Frame.scrollBottom h.frame
  unfold Terminal.lineFeed? Display.lineFeed
  rw [hy, hbottom, h.grid.rows_eq]
  split_ifs
  · exact h.scrollUp? hd
  · exact .pure (h.withFrame fun f => { f with cursorY := f.cursorY + 1 })
  · exact .pure h

/-- The rule for a loop. -/
theorem Shows.times {f : Terminal → Option Terminal} {F : Display → Display}
    (hf : ∀ t d, t.Shows d → d.Ok → Returns (f t) (·.Shows (F d)))
    (hok : ∀ d, d.Ok → (F d).Ok) (h : t.Shows d) (hd : d.Ok) (n : Nat) :
    Returns (Lib.times n f t) (·.Shows (F^[n] d)) := by
  refine (Returns.times_sim (R := fun t d => t.Shows d ∧ d.Ok) ⟨h, hd⟩ ?_).mono fun _ ht => ht.1
  rintro t d ⟨h, hd⟩
  exact (hf t d h hd).mono fun _ ht => ⟨ht, hok d hd⟩

/-! ### The saved cursor and the alternate screen -/

theorem Shows.saveCursor (h : t.Shows d) (altEpoch : Option Nat) (saved : Bool) :
    (t.saveCursor altEpoch saved).Shows (d.saveCursor altEpoch saved) := by
  have hstyle : t.state.currentStyle = d.state.currentStyle :=
    congrArg ScreenState.currentStyle h.state
  unfold Terminal.saveCursor Display.saveCursor
  dsimp only
  rw [h.frame, hstyle]
  exact h.withState fun s => rfl

theorem invalidatePendingForGeometry_shows {g : Grid} {v : Sheet} (h : g.Shows v) (invalid : Bool) :
    (g.invalidatePendingForGeometry (.altRestore invalid)).Shows
      (v.withFrame (Display.dropWrap invalid)) := by
  unfold Grid.invalidatePendingForGeometry
  cases invalid with
  | false =>
      refine ⟨h.frame.trans ?_, h.cells, h.boundary⟩
      simp [Sheet.withFrame, Display.dropWrap]
  | true =>
      refine ⟨?_, h.cells, h.boundary⟩
      show ({ g.toFrame with wrapPending := if g.logicalShadow then _ else _ } : Frame) = _
      rw [h.frame]
      show _ = ({ v.toFrame with wrapPending := v.wrapPending && !(true && v.logicalShadow) } : Frame)
      cases v.logicalShadow <;> simp

theorem Shows.restoreCursor (h : t.Shows d) (invalid : Bool) :
    (t.restoreCursor invalid).Shows (d.restoreCursor invalid) := by
  have hcursor : t.state.savedCursorState = d.state.savedCursorState :=
    congrArg ScreenState.savedCursorState h.state
  have h₁ := h.withGrid (f := (·.invalidatePendingForGeometry (.altRestore invalid)))
    (invalidatePendingForGeometry_shows h.grid invalid)
  unfold Terminal.restoreCursor Display.restoreCursor
  dsimp only
  rw [show (t.withGrid (·.invalidatePendingForGeometry (.altRestore invalid))).state.savedCursorState =
    (d.withFrame (Display.dropWrap invalid)).state.savedCursorState from hcursor]
  generalize t.withGrid (·.invalidatePendingForGeometry (.altRestore invalid)) = t at h₁
  generalize (d.withFrame (Display.dropWrap invalid)).state.savedCursorState = cursor
  cases cursor with
  | none => exact h₁
  | some saved =>
    have hshadow : t.grid.logicalShadow = _ := congrArg Frame.logicalShadow h₁.frame
    have hwrap := h₁.grid.invalidateProvenanceKeepRaw.setWrapPending
      (saved.wrapPending && !(invalid && t.grid.logicalShadow))
    have hplace := h₁.withGrid (f := fun g => (g.invalidateProvenanceKeepRaw.setWrapPending
      (saved.wrapPending && !(invalid && g.logicalShadow))).withFrame saved.place)
      (hwrap.withFrame saved.place)
    rw [hshadow] at hplace
    exact hplace.withState fun s => rfl

theorem Shows.beginEpoch (h : t.Shows d) (save : Bool) :
    (t.beginEpoch save).Shows (d.beginEpoch save) := by
  have hepoch : t.state.nextAltEpoch = d.state.nextAltEpoch :=
    congrArg ScreenState.nextAltEpoch h.state
  have h₁ : (t.withState fun s => { s with nextAltEpoch := nextU64 d.state.nextAltEpoch }).Shows
      (d.withState fun s => { s with nextAltEpoch := nextU64 d.state.nextAltEpoch }) :=
    h.withState fun s => rfl
  unfold Terminal.beginEpoch Display.beginEpoch
  dsimp only
  rw [hepoch]
  split_ifs
  · exact h₁.saveCursor _ _
  · exact h₁

theorem fillVisibleBlank_shows {g : Grid} {v : Sheet} (h : g.Shows v) :
    g.fillVisibleBlank.Shows
      { v with lines := v.lines ++ List.replicate v.rows (.new v.cols) } := by
  have hpush := h.iterate_pushBlank g.rows
  rw [h.rows_eq] at hpush
  unfold Grid.fillVisibleBlank
  rw [h.rows_eq]
  exact hpush.mono rfl rfl rfl

theorem Shows.suspendMain? (h : t.Shows d) (altEpoch : Option Nat) (entered : Bool) :
    Returns (t.suspendMain? altEpoch entered) (·.Shows d.suspendMain) := by
  unfold Terminal.suspendMain?
  refine .bind h.grid.drainVisible? fun ⟨rows, grid⟩ ⟨hrows, hgrid⟩ => .pure ⟨?_, ?_⟩
  · have hfill := fillVisibleBlank_shows hgrid
    have halt := hfill.withFrame fun f => { f with scrollbackLimit := 0, cursorX := 0, cursorY := 0 }
    exact (halt.withFrame (·.resetScrollRegion)).setWrapPending false
  · have hfill := fillVisibleBlank_shows hgrid
    have hmodes : grid.fillVisibleBlank.modes = d.sheet.modes := congrArg Frame.modes hfill.frame
    have hframe : grid.toFrame = d.sheet.toFrame := hgrid.frame
    dsimp only at hrows
    unfold Display.suspendMain
    dsimp only
    rw [hmodes, hframe, ← hrows, ← h.state]
    rfl

theorem Shows.enterAltScreen? (h : t.Shows d) (save : Bool) :
    Returns (t.enterAltScreen? save) (·.Shows (d.enterAltScreen save)) := by
  have halt : t.state.inAltScreen = d.state.inAltScreen :=
    congrArg ScreenState.inAltScreen h.state
  unfold Terminal.enterAltScreen? Display.enterAltScreen
  rw [halt]
  split_ifs
  · exact .pure h
  · exact (h.beginEpoch save).suspendMain? _ _

theorem replaceVisible_shows {g : Grid} {v : Sheet} (h : g.Shows v) (rows : List Row) :
    (g.replaceVisible rows).Shows { v with lines := rows.map Row.toLine } := by
  refine ⟨h.frame, ?_, h.boundary⟩
  show (g.cells.take g.scrollbackLen ++ rows).map Row.toLine = _
  rw [List.map_append, List.map_take, h.cells, h.boundary, List.take_left]

theorem foldl_modifyLine (v : Sheet) (f : Line → Line) (ys : List Nat) :
    ys.foldl (fun v y => v.modifyLine y f) v =
      { v with lines := ys.foldl (fun lines y => lines.modify y f) v.lines } := by
  induction ys generalizing v with
  | nil => rfl
  | cons y ys ih => exact ih (v.modifyLine y f)

theorem fitVisibleCols?_shows {g : Grid} {v : Sheet} (h : g.Shows v) :
    Returns (fitVisibleCols? g) (·.Shows v.fitCols) := by
  have hcount : g.visibleRowCount = v.lines.length := by
    rw [Grid.visibleRowCount, h.length, h.boundary]
    omega
  have hfold : v.fitCols = (List.range v.lines.length).foldl
      (fun w y => w.modifyLine y (Sheet.fitLine v.cols)) v := by
    rw [foldl_modifyLine, Grid.foldl_modify_range]
    rfl
  unfold fitVisibleCols?
  rw [hcount, hfold]
  refine (Returns.foldlM_sim (R := fun g w => g.Shows w ∧ w.cols = v.cols ∧
    w.lines.length = v.lines.length) ⟨h, rfl, rfl⟩ ?_).mono fun g' hg' => hg'.1
  rintro g w y hy ⟨hg, hcols, hlen⟩
  rw [hg.cols_eq, hcols]
  refine (hg.modifyLine? (by simpa [hlen] using hy) _).mono fun g' hg' => ⟨hg', hcols, ?_⟩
  simpa using hlen

theorem restoreSaved?_shows {g : Grid} {v : Sheet} (h : g.Shows v) (saved : SavedGrid) :
    Returns (restoreSaved? g saved) (·.Shows (Display.restoreSaved v saved.shown)) := by
  have hrows := (replaceVisible_shows h saved.visibleCells).withFrame fun f =>
    { f with scrollbackLimit := saved.scrollbackLimit }
  exact fitVisibleCols?_shows hrows.adjustVisibleToFit

theorem shown_prepareAltRestore (g : Grid) (saved : SavedGrid) :
    (g.prepareAltRestore saved).2.2.1.shown = saved.shown := by
  unfold SavedGrid.shown Grid.prepareAltRestore
  dsimp only
  congr 1
  refine Grid.map_toLine_map fun row => ?_
  split_ifs <;> rfl

theorem prepareAltRestore_shows {g : Grid} {v : Sheet} (h : g.Shows v) (saved : SavedGrid) :
    (g.prepareAltRestore saved).2.2.2.Shows v :=
  h.severIds _

theorem withModes_shows {g : Grid} {v : Sheet} (h : g.Shows v) (saved : Option TerminalModes) : Grid.Shows
    (match saved with | some modes => { g with modes } | none => g)
    (match saved with | some modes => v.withFrame fun f => { f with modes } | none => v) := by
  cases saved with
  | none => exact h
  | some modes => exact h.withFrame fun f => { f with modes }

theorem Shows.resumeMain? (h : t.Shows d) :
    Returns t.resumeMain? fun r => r.1.Shows d.resumeMain ∧ r.2.1 = d.resumeInvalid := by
  have hsaved : t.state.savedGrid.map SavedGrid.shown = d.state.savedGrid :=
    congrArg ScreenState.savedGrid h.state
  have hcursor : t.state.savedCursorState = d.state.savedCursorState :=
    congrArg ScreenState.savedCursorState h.state
  have hmodes : t.state.savedModes = d.state.savedModes := congrArg ScreenState.savedModes h.state
  have hstate : ScreenState.map SavedGrid.shown
      { t.state with inAltScreen := false, savedGrid := none, savedModes := none } =
      { d.state with inAltScreen := false, savedGrid := none, savedModes := none } := by
    rw [← h.state]
    rfl
  have hgrid : { t.grid with inAltDomain := false }.Shows d.sheet := h.grid.mono rfl rfl rfl
  unfold Terminal.resumeMain? Display.resumeMain Display.resumeInvalid
  dsimp only
  rw [← hsaved, ← hmodes]
  cases hs : t.state.savedGrid with
  | none => exact .bind_eq rfl (.pure ⟨⟨withModes_shows hgrid _, hstate⟩, rfl⟩)
  | some saved =>
      have hrestored := restoreSaved?_shows (prepareAltRestore_shows hgrid saved)
        ({ t.grid with inAltDomain := false }.prepareAltRestore saved).2.2.1
      rw [shown_prepareAltRestore] at hrestored
      refine .bind hrestored fun g hg => .pure ⟨⟨withModes_shows hg _, hstate⟩, ?_⟩
      show (t.grid.cols != saved.saveCols ||
        t.state.savedCursorState.any fun cursor =>
          decide (min t.grid.rows saved.visibleCells.length ≤ cursor.y)) =
        Display.geometryInvalid d.sheet.toFrame saved.shown d.state.savedCursorState
      unfold Display.geometryInvalid
      rw [h.grid.cols_eq, h.grid.rows_eq, hcursor,
        show saved.shown.lines.length = saved.visibleCells.length from List.length_map ..]
      rfl

theorem finishAltRestore_shows {g : Grid} {v : Sheet} (h : g.Shows v) (pending : Option PendingWrap)
    (sequential : Option SequentialEdge) (authorize : Bool) :
    (g.finishAltRestore pending sequential authorize).Shows v := by
  have h₁ := (h.tokens (if authorize then pending else none)
    (if authorize then sequential else none) false).validateAllEdges
  exact (h₁.tokens _ _ _).validateAllEdges

theorem Shows.finishRestore (h : t.Shows d) (restored : Option SavedGrid) (restore : Bool) :
    (t.finishRestore restored restore).Shows d := by
  unfold Terminal.finishRestore
  cases restored with
  | none => exact h
  | some saved => exact h.withGrid (finishAltRestore_shows h.grid _ _ _)

theorem restoreRegion_eq (g : Grid) (region : Option (Nat × Nat)) :
    restoreRegion g region = g.withFrame (Display.restoreRegion · region) := by
  cases region <;> rfl

theorem Shows.exitAltScreen? (h : t.Shows d) (hd : d.Ok) (restore : Bool) :
    Returns (t.exitAltScreen? restore) (·.Shows (d.exitAltScreen restore)) := by
  have halt : t.state.inAltScreen = d.state.inAltScreen :=
    congrArg ScreenState.inAltScreen h.state
  unfold Terminal.exitAltScreen? Display.exitAltScreen
  rw [halt]
  split
  next => exact .pure h
  next hstay =>
    have hd₁ := (Display.effect_resumeMain hd (by simpa using hstay)).ok
    refine .bind h.resumeMain? fun ⟨t₁, invalid, restored⟩ ⟨h₁, hinvalid⟩ => ?_
    dsimp only at h₁ hinvalid ⊢
    subst hinvalid
    -- The cursor is restored or not; what follows is the same.
    have hrest : ∀ (t₂ : Terminal) (d₂ : Display), t₂.Shows d₂ → d₂.Ok → Terminal.Shows
        { grid := compactStyles
            (restoreRegion (t₂.finishRestore restored restore).grid
              (t₂.finishRestore restored restore).state.savedScrollRegion) none
          state := { (t₂.finishRestore restored restore).state with savedScrollRegion := none } }
        d₂.resumeRegion := by
      intro t₂ d₂ h₂ hd₂
      have h₃ := h₂.finishRestore restored restore
      have hregion : (t₂.finishRestore restored restore).state.savedScrollRegion =
          d₂.state.savedScrollRegion := congrArg ScreenState.savedScrollRegion h₃.state
      have hframe := h₃.grid.withFrame (Display.restoreRegion · d₂.state.savedScrollRegion)
      have hok := (Display.Effect.withFrame hd₂ (f := (Display.restoreRegion ·
        d₂.state.savedScrollRegion)) (Display.moves_restoreRegion ..)).ok
      refine ⟨?_, ?_⟩
      · show (compactStyles _ none).Shows _
        rw [hregion, restoreRegion_eq]
        exact compactStyles_shows hframe hok.fits none
      · exact congrArg (fun s : ScreenState SavedSheet => { s with savedScrollRegion := none })
          h₃.state
    refine .pure ?_
    split_ifs with hrestore
    · exact hrest _ _ (h₁.restoreCursor _) (Display.effect_restoreCursor hd₁ _).ok
    · exact hrest _ _ h₁ hd₁

/-! ### Printing -/

theorem cursorRow {g : Grid} {v : Sheet} (h : g.Shows v) (hv : v.Fits) :
    ∃ row, g.visibleRow? g.cursorY = some row := by
  obtain ⟨row, hrow, -⟩ := h.visibleRow? (hv.lt_length hv.cursorY)
  exact ⟨row, (congrArg g.visibleRow? (congrArg Frame.cursorY h.frame)).trans hrow⟩

theorem takeQualifiedWrap?_shows {g : Grid} {v : Sheet} (h : g.Shows v) (hv : v.Fits) :
    Returns g.takeQualifiedWrap? (·.2.Shows v) := by
  obtain ⟨row, hrow⟩ := cursorRow h hv
  unfold Grid.takeQualifiedWrap?
  split
  · exact .pure h
  · exact .bind_eq hrow (.pure (h.tokens none _ _))

theorem publishDeferredWrap?_shows {g : Grid} {v : Sheet} (h : g.Shows v) (hv : v.Fits)
    (pending : Option PendingWrap) : Returns (g.publishDeferredWrap? pending) (·.Shows v) := by
  obtain ⟨row, hrow⟩ := cursorRow h hv
  have hnone : { g with sequentialEdge := none }.Shows v := h.tokens _ none _
  unfold Grid.publishDeferredWrap?
  split
  · exact .pure hnone
  · refine .bind_eq hrow ?_
    split
    · exact .pure hnone
    · split
      · exact .pure hnone
      · exact .pure ((h.setOutgoing _ _).mono rfl rfl rfl)

theorem armQualifiedWrap?_shows {g : Grid} {v : Sheet} (h : g.Shows v) (hv : v.Fits)
    (kind : WrapKind) (padding : Nat) :
    Returns (g.armQualifiedWrap? kind padding)
      (·.Shows (v.withFrame fun f => { f with wrapPending := true })) := by
  obtain ⟨row, hrow⟩ := cursorRow h hv
  unfold Grid.armQualifiedWrap?
  refine .bind_eq hrow (.pure ?_)
  exact (h.withFrame fun f => { f with wrapPending := true }).tokens _ _ _

theorem Shows.performDeferredWrap? (h : t.Shows d) (hd : d.Ok) :
    Returns t.performDeferredWrap? (·.Shows d.performDeferredWrap) := by
  unfold Terminal.performDeferredWrap?
  refine .bind (takeQualifiedWrap?_shows h.grid hd.fits) fun ⟨pending, g⟩ hg => ?_
  have hhome := h.withGrid (f := fun _ => { g.setWrapPending false with cursorX := 0 })
    ((hg.setWrapPending false).withFrame fun f => { f with cursorX := 0 })
  have hd₁ : Display.Ok (d.withFrame fun f => { f with wrapPending := false, cursorX := 0 }) :=
    (Display.Effect.withFrame hd (Frame.moves_return _)).ok
  refine .bind (hhome.lineFeed? hd₁) fun t₂ h₂ => ?_
  exact h₂.withGrid? (publishDeferredWrap?_shows h₂.grid (Display.effect_lineFeed hd₁).ok.fits pending)

theorem Shows.handleCombiningMark? (h : t.Shows d) (hd : d.Ok) (c : Char) :
    Returns (t.handleCombiningMark? c) (·.Shows (d.handleCombiningMark c)) := by
  have hx : t.grid.cursorX = d.sheet.cursorX := congrArg Frame.cursorX h.frame
  have hy : t.grid.cursorY = d.sheet.cursorY := congrArg Frame.cursorY h.frame
  have hwrap : t.grid.wrapPending = d.sheet.wrapPending := congrArg Frame.wrapPending h.frame
  have hyl := hd.fits.lt_length hd.fits.cursorY
  have hcur := hd.fits.cursorX
  obtain ⟨row, hrow, hline⟩ := h.grid.visibleRow? hyl
  have hget : d.sheet.lines.getD d.sheet.cursorY { cells := [] } = row.toLine := by
    rw [hline]
    simp [hyl]
  unfold Terminal.handleCombiningMark? Display.handleCombiningMark Display.markColumn
  dsimp only
  rw [hx, hy, hwrap, h.grid.rows_eq, h.grid.cols_eq, if_neg (by have := hd.fits.cursorY; omega), hget]
  split
  · exact .pure h
  · generalize hcol : (if d.sheet.wrapPending = true then d.sheet.cursorX
      else d.sheet.cursorX - 1) = x
    have hxlt : x < d.sheet.cols := by
      rw [← hcol]
      split_ifs <;> omega
    have hlen : x < row.cells.length := by
      have := hd.fits.len hyl
      rw [← hline] at this
      exact hxlt.trans_eq this.symm
    have hcell : row.get? x = some row.cells[x] := by simp [Row.get?, hlen]
    have hwidth : row.widthAt x = row.cells[x].width := by simp [Line.widthAt, hlen]
    rw [if_neg (by omega)]
    refine .bind_eq hrow (.bind_eq hcell ?_)
    rw [hwidth]
    generalize (if row.cells[x].width = 0 ∧ 0 < x then x - 1 else x) = x
    split_ifs
    · exact h.withGrid? (f := (·.pushPrintCombining? d.sheet.cursorY x c))
        (h.grid.pushPrintCombining? hd.fits hd.fits.cursorY x c)
    · exact .pure h

theorem Shows.wideAtMargin? (h : t.Shows d) (hd : d.Ok) (width : Nat) :
    Returns (t.wideAtMargin? width) fun r =>
      (r = none ∧ d.wideAtMargin width = none) ∨
        ∃ t₁ d₁, r = some t₁ ∧ d.wideAtMargin width = some d₁ ∧ t₁.Shows d₁ := by
  have hx : t.grid.cursorX = d.sheet.cursorX := congrArg Frame.cursorX h.frame
  have hy : t.grid.cursorY = d.sheet.cursorY := congrArg Frame.cursorY h.frame
  have hmodes : t.grid.modes = d.sheet.modes := congrArg Frame.modes h.frame
  unfold Terminal.wideAtMargin? Display.wideAtMargin
  rw [hx, hy, hmodes, h.grid.cols_eq, h.grid.rows_eq]
  split_ifs with hwide hauto hnarrow hinside
  · exact .pure (.inl ⟨rfl, rfl⟩)
  · have hd₁ := (Display.effect_blankCell hd).ok
    refine .bind (h.blankCell? hd) fun ⟨blank, t₁⟩ ⟨hblank, h₁⟩ => ?_
    dsimp only at hblank h₁ ⊢
    subst hblank
    have hx₁ : t₁.grid.cursorX = d.blankCell.2.sheet.cursorX := congrArg Frame.cursorX h₁.frame
    have hy₁ : t₁.grid.cursorY = d.blankCell.2.sheet.cursorY := congrArg Frame.cursorY h₁.frame
    have hpad := h₁.grid.setWideEarlyPadding? hd₁.fits hd₁.fits.cursorX hd₁.fits.cursorY d.blankCell.1
    rw [← hx₁, ← hy₁] at hpad
    refine .bind (h₁.withGrid? hpad) fun t₂ h₂ => ?_
    have hd₂ := (Display.Effect.modifyLine hd₁ t₁.grid.cursorY
      (f := (·.set t₁.grid.cursorX d.blankCell.1)) fun line hline => by simpa using hline).ok
    refine .bind (h₂.withGrid? (armQualifiedWrap?_shows h₂.grid hd₂.fits .wideEarly 1)) fun t₃ h₃ => ?_
    have hd₃ := (Display.Effect.withFrame hd₂ (f := fun f => { f with wrapPending := true })
      (Frame.moves_wrap _ true)).ok
    refine .bind (h₃.performDeferredWrap? hd₃) fun t₄ h₄ => .pure (.inr ⟨t₄, _, rfl, rfl, ?_⟩)
    rw [hx₁, hy₁] at h₄
    exact h₄
  · exact absurd ⟨hd.fits.cursorX, hd.fits.cursorY⟩ hinside
  · exact .pure (.inl ⟨rfl, rfl⟩)
  · exact .pure (.inr ⟨t, d, rfl, rfl, h⟩)

theorem Shows.putChar? (h : t.Shows d) (hd : d.Ok) (c : Char) (width : Nat) :
    Returns (t.putChar? c width) (·.Shows (d.putChar c width)) := by
  have hx : t.grid.cursorX = d.sheet.cursorX := congrArg Frame.cursorX h.frame
  have hy : t.grid.cursorY = d.sheet.cursorY := congrArg Frame.cursorY h.frame
  have hstyle : t.state.currentStyle = d.state.currentStyle :=
    congrArg ScreenState.currentStyle h.state
  have hd₁ := (Display.effect_internWithGc hd d.state.currentStyle).ok
  unfold Terminal.putChar? Display.putChar
  dsimp only
  rw [if_pos (by rw [hx, hy, h.grid.cols_eq, h.grid.rows_eq]
                 exact ⟨hd.fits.cursorX, hd.fits.cursorY⟩), hstyle]
  refine .bind (h.internWithGc? hd _) fun ⟨id, t₁⟩ ⟨hid, h₁⟩ => ?_
  dsimp only at hid h₁ ⊢
  subst hid
  obtain ⟨table, htable⟩ := Display.internWithGc_eq d d.state.currentStyle
  generalize (d.internWithGc d.state.currentStyle).1 = id
  generalize (d.internWithGc d.state.currentStyle).2 = d₁ at h₁ hd₁ htable
  rw [hx, hy, show d.sheet.cursorX = d₁.sheet.cursorX by rw [htable]; rfl,
    show d.sheet.cursorY = d₁.sheet.cursorY by rw [htable]; rfl]
  have hput := h₁.grid.setCell? hd₁.fits hd₁.fits.cursorX hd₁.fits.cursorY true
    { c, styleId := id, width := width % 256 }
  refine .bind (h₁.withGrid? hput) fun t₂ h₂ => ?_
  have hd₂ := (Display.Effect.modifyLine hd₁ d₁.sheet.cursorY
    (f := (·.put d₁.sheet.cols d₁.sheet.cursorX { c, styleId := id, width := width % 256 }))
    fun line hline => by simpa using hline).ok
  have hx₂ : t₂.grid.cursorX = d₁.sheet.cursorX := congrArg Frame.cursorX h₂.frame
  have hcols₂ : t₂.grid.cols = d₁.sheet.cols := h₂.grid.cols_eq
  have hauto : t₂.grid.modes.autowrapMode = d₁.sheet.modes.autowrapMode :=
    congrArg (fun f : Frame => f.modes.autowrapMode) h₂.frame
  rw [hx₂, hcols₂]
  split_ifs with hmargin hwrap
  · have h₃ := h₂.withFrame fun f => { f with cursorX := f.cols - 1 }
    have hd₃ := (Display.Effect.withFrame hd₂ (f := fun f => { f with cursorX := f.cols - 1 })
      (.of_cursor rfl rfl rfl rfl rfl rfl rfl rfl fun hf => ⟨by
        have := d₁.sheet.cols_pos
        show d₁.sheet.cols - 1 < d₁.sheet.cols
        omega, hf.cursorY⟩)).ok
    have hadv : Display.advance d₁.sheet.toFrame width =
        { d₁.sheet.toFrame with cursorX := d₁.sheet.cols - 1, wrapPending := true } := by
      unfold Display.advance
      dsimp only
      rw [if_pos hmargin, ← hauto, show t₂.grid.modes.autowrapMode = true from hwrap, Bool.or_true]
    refine (h₃.withGrid? (armQualifiedWrap?_shows h₃.grid hd₃.fits .normal 0)).mono fun t₄ h₄ => ?_
    refine ⟨⟨h₄.frame.trans hadv.symm, h₄.grid.cells, h₄.grid.boundary⟩, h₄.state⟩
  · have hadv : Display.advance d₁.sheet.toFrame width =
        { d₁.sheet.toFrame with cursorX := d₁.sheet.cols - 1 } := by
      unfold Display.advance
      dsimp only
      rw [if_pos hmargin, ← hauto,
        show t₂.grid.modes.autowrapMode = false from Bool.eq_false_iff.mpr hwrap, Bool.or_false]
    have h₃ := h₂.withFrame fun f => { f with cursorX := f.cols - 1 }
    exact .pure ⟨⟨h₃.frame.trans hadv.symm, h₃.grid.cells, h₃.grid.boundary⟩, h₃.state⟩
  · have hadv : Display.advance d₁.sheet.toFrame width =
        { d₁.sheet.toFrame with cursorX := (d₁.sheet.cursorX + width) % 65536 } := by
      unfold Display.advance
      dsimp only
      rw [if_neg hmargin]
    have h₃ := h₂.withFrame fun f => { f with cursorX := (d₁.sheet.cursorX + width) % 65536 }
    exact .pure ⟨⟨h₃.frame.trans hadv.symm, h₃.grid.cells, h₃.grid.boundary⟩, h₃.state⟩

theorem Shows.putAtMargin? (h : t.Shows d) (hd : d.Ok) (c : Char) (width : Nat) : Returns (do
      match ← t.wideAtMargin? width with
      | none => some t
      | some t => t.putChar? c width)
    (·.Shows (match d.wideAtMargin width with
      | none => d
      | some d => d.putChar c width)) := by
  refine .bind (h.wideAtMargin? hd width) fun r hr => ?_
  rcases hr with ⟨rfl, hnone⟩ | ⟨t', d', rfl, hsome, h'⟩
  · rw [hnone]
    exact .pure h
  · rw [hsome]
    exact h'.putChar? (Display.effect_wideAtMargin hd _ d' hsome).ok c _

theorem Shows.print? (charWidth : Char → Nat) (h : t.Shows d) (hd : d.Ok) (c : Char) :
    Returns (t.print? charWidth c) (·.Shows (d.print charWidth c)) := by
  have h₁ := h.withState (f := fun s => { s with lastPrintedChar := c })
    (F := fun s => { s with lastPrintedChar := c }) fun s => rfl
  have hd₁ : Display.Ok (d.withState fun s => { s with lastPrintedChar := c }) :=
    (Display.effect_withState hd (f := fun s => { s with lastPrintedChar := c })
      fun s => ⟨rfl, rfl, rfl, rfl, rfl⟩).ok
  unfold Terminal.print? Display.print
  dsimp only
  generalize t.withState _ = t at h₁
  generalize d.withState _ = d at h₁ hd₁
  have hmodes : t.grid.modes = d.sheet.modes := congrArg Frame.modes h₁.frame
  have hwrap : t.grid.wrapPending = d.sheet.wrapPending := congrArg Frame.wrapPending h₁.frame
  rw [hmodes, hwrap]
  generalize d.sheet.modes.mapCharset c = c
  -- The character is put, once a deferred wrap is done.
  split_ifs with hzero hdeferred
  · exact h₁.handleCombiningMark? hd₁ c
  · refine .bind (h₁.performDeferredWrap? hd₁) fun t₂ h₂ => ?_
    exact h₂.putAtMargin? (Display.effect_performDeferredWrap hd₁).ok c _
  · exact .bind_eq rfl (h₁.putAtMargin? hd₁ c _)

/-! ### Control bytes and sequences -/

theorem Shows.execute? (h : t.Shows d) (hd : d.Ok) (byte : UInt8) :
    Returns (t.execute? byte) (·.Shows (d.execute byte)) := by
  have hlf : Returns (t.withGrid (·.setWrapPending false)).lineFeed?
      (·.Shows (d.withFrame fun f => { f with wrapPending := false }).lineFeed) :=
    (h.setWrapPending false).lineFeed? (Display.Effect.withFrame hd (Frame.moves_wrap _ false)).ok
  unfold Terminal.execute? Display.execute
  generalize byte.toNat = n
  split
  · exact .pure (h.withGrid (f := fun g => { g with cursorX := 0 }.setWrapPending false)
      ((h.grid.withFrame fun f => { f with cursorX := 0 }).setWrapPending false))
  · exact hlf
  · exact hlf
  · exact hlf
  · exact .pure (h.moveCursor _)
  · exact .pure (h.moveCursor _)
  · exact .pure (h.withModes _)
  · exact .pure (h.withModes _)
  · exact .pure (h.pushPassthrough _)
  · first
      | exact .pure h
      | split <;> first | contradiction | exact .pure h

theorem Shows.csiEraseDisplay? (h : t.Shows d) (hd : d.Ok) (mode : Nat) :
    Returns (t.csiEraseDisplay? mode) (·.Shows (d.csiEraseDisplay mode)) := by
  have hd₁ := (Display.effect_blankCell hd).ok
  unfold Terminal.csiEraseDisplay? Display.csiEraseDisplay
  refine .bind (h.blankCell? hd) fun ⟨blank, t₁⟩ ⟨hblank, h₁⟩ => ?_
  dsimp only at hblank h₁ ⊢
  subst hblank
  generalize d.blankCell.1 = blank
  generalize d.blankCell.2 = d at h₁ hd₁
  have hx : t₁.grid.cursorX = d.sheet.cursorX := congrArg Frame.cursorX h₁.frame
  have hy : t₁.grid.cursorY = d.sheet.cursorY := congrArg Frame.cursorY h₁.frame
  have hcy := hd₁.fits.cursorY
  have hcx := hd₁.fits.cursorX
  rw [hx, hy]
  split
  · rw [h₁.grid.cols_eq]
    refine .bind (h₁.withGrid? (h₁.grid.eraseCells? hd₁.fits hcy hcx d.sheet.cols blank))
      fun t₂ h₂ => ?_
    have hd₂ := (Display.effect_eraseCells hd₁ d.sheet.cursorY d.sheet.cursorX d.sheet.cols blank).ok
    have hrows : t₂.grid.rows = d.sheet.rows := by
      rw [h₂.grid.rows_eq, Sheet.toFrame_eraseCells]
    rw [hrows]
    exact h₂.withGrid? (h₂.grid.eraseRows? hd₂.fits
      (by simpa [Nat.succ_le_iff] using hcy) (by simp) blank)
  · refine .bind (h₁.withGrid? (h₁.grid.eraseRows? hd₁.fits (Nat.zero_le _) hcy.le blank))
      fun t₂ h₂ => ?_
    have hd₂ := (Display.effect_eraseRows hd₁ 0 d.sheet.cursorY blank).ok
    have herase := h₂.grid.eraseCells? hd₂.fits (y := d.sheet.cursorY) (by simpa using hcy)
      (Frame.cols_pos _) (min (d.sheet.cursorX + 1) t₂.grid.cols) blank
    rw [h₂.grid.cols_eq, Sheet.eraseCells_min] at herase
    rw [h₂.grid.cols_eq]
    exact h₂.withGrid? herase
  · rw [h₁.grid.rows_eq]
    exact h₁.withGrid? (h₁.grid.eraseRows? hd₁.fits (Nat.zero_le _) le_rfl blank)
  · refine .bind (h₁.withGrid? h₁.grid.clearScrollback?) fun t₂ h₂ => .pure ?_
    exact h₂.pushPassthrough _
  · first
      | exact .pure h₁
      | split <;> first | contradiction | exact .pure h₁

theorem Shows.csiEraseLine? (h : t.Shows d) (hd : d.Ok) (mode : Nat) :
    Returns (t.csiEraseLine? mode) (·.Shows (d.csiEraseLine mode)) := by
  have hd₁ := (Display.effect_blankCell hd).ok
  unfold Terminal.csiEraseLine? Display.csiEraseLine
  refine .bind (h.blankCell? hd) fun ⟨blank, t₁⟩ ⟨hblank, h₁⟩ => ?_
  dsimp only at hblank h₁ ⊢
  subst hblank
  generalize d.blankCell.1 = blank
  generalize d.blankCell.2 = d at h₁ hd₁
  have hx : t₁.grid.cursorX = d.sheet.cursorX := congrArg Frame.cursorX h₁.frame
  have hy : t₁.grid.cursorY = d.sheet.cursorY := congrArg Frame.cursorY h₁.frame
  have herase := fun {start : Nat} (hs : start < d.sheet.cols) stop =>
    h₁.grid.eraseCells? hd₁.fits hd₁.fits.cursorY hs stop blank
  rw [hx, hy, h₁.grid.cols_eq]
  split
  · exact h₁.withGrid? (herase hd₁.fits.cursorX _)
  · have hmin := herase d.sheet.cols_pos (min (d.sheet.cursorX + 1) d.sheet.cols)
    rw [Sheet.eraseCells_min] at hmin
    exact h₁.withGrid? hmin
  · exact h₁.withGrid? (herase d.sheet.cols_pos _)
  · first
      | exact .pure h₁
      | split <;> first | contradiction | exact .pure h₁

theorem Shows.csiEraseCharacter? (h : t.Shows d) (hd : d.Ok) (n : Nat) :
    Returns (t.csiEraseCharacter? n) (·.Shows (d.csiEraseCharacter n)) := by
  refine h.withBlank? hd (f := fun blank t => if t.grid.cursorY < t.grid.rows then
      t.withGrid? (·.eraseCells? t.grid.cursorY t.grid.cursorX
        (min (t.grid.cursorX + n) t.grid.cols) blank) else some t)
    (F := fun blank d => d.withSheet fun v =>
      v.eraseCells v.cursorY v.cursorX (v.cursorX + n) blank) ?_
  intro blank t d h hd
  have hx : t.grid.cursorX = d.sheet.cursorX := congrArg Frame.cursorX h.frame
  have hy : t.grid.cursorY = d.sheet.cursorY := congrArg Frame.cursorY h.frame
  have herase := h.grid.eraseCells? hd.fits hd.fits.cursorY hd.fits.cursorX
    (min (d.sheet.cursorX + n) d.sheet.cols) blank
  rw [Sheet.eraseCells_min] at herase
  rw [hx, hy, h.grid.rows_eq, h.grid.cols_eq, if_pos hd.fits.cursorY]
  exact h.withGrid? herase

/-- The rule for a change of one row, which may rely on its width. -/
theorem modifyRow?_shows {g : Grid} {v : Sheet} {y : Nat} {f : Row → Option Row} {F : Line → Line}
    (h : g.Shows v) (hv : v.Fits) (hy : y < v.rows)
    (hf : ∀ row : Row, row.len = v.cols → Returns (f row) (·.toLine = F row.toLine)) :
    Returns (g.modifyRow? y f) (·.Shows (v.modifyLine y F)) := by
  refine h.modifyRow? (hv.lt_length hy) fun row hrow => ?_
  rw [← hrow]
  exact hf row (by rw [hrow]; exact hv.len (hv.lt_length hy))

theorem times_modifyRow?_shows {g : Grid} {v : Sheet} {y : Nat} {f : Row → Option Row}
    {F : Line → Line} (h : g.Shows v) (hv : v.Fits) (hy : y < v.rows)
    (hf : ∀ row : Row, row.len = v.cols → Returns (f row) (·.toLine = F row.toLine))
    (hF : ∀ line, line.len = v.cols → (F line).len = v.cols) (n : Nat) :
    Returns (times n (·.modifyRow? y f) g) (·.Shows (v.modifyLine y F^[n])) := by
  induction n generalizing g v with
  | zero =>
      refine .pure ?_
      rw [Sheet.modifyLine_eq_self (hv.lt_length hy) rfl]
      exact h
  | succ n ih =>
      refine .bind (modifyRow?_shows h hv hy hf) fun g₁ h₁ => ?_
      have hrest := ih h₁ (hv.modifyLine y hF) hy hf hF
      rw [Sheet.modifyLine_modifyLine] at hrest
      exact hrest

theorem get?_eq (row : Row) {x : Nat} (hx : x < row.len) :
    ∃ cell, row.get? x = some cell ∧ row.widthAt x = cell.width := by
  have hx' : x < row.cells.length := hx
  refine ⟨row.cells[x], ?_, ?_⟩
  · simp [Row.get?, hx']
  · simp [Line.widthAt, hx']

theorem set?_eq {row : Row} {x : Nat} (hx : x < row.len) (cell : Cell) :
    row.set? x cell = some (row.withLine (·.set x cell)) :=
  if_pos hx

theorem blankContinuation?_line {row : Row} {x : Nat} (hx : x < row.len) (blank : Cell) :
    Returns (blankContinuation? x blank row)
      (·.toLine = Display.blankContinuation x blank row.toLine) := by
  unfold blankContinuation? Display.blankContinuation
  refine .bind_eq (set?_eq hx blank) ?_
  have hlen : (row.withLine (·.set x blank)).len = row.len := Line.len_set _ _ _
  dsimp only
  split_ifs with hpos hwide
  · obtain ⟨cell, hcell, hwidth⟩ := get?_eq (row.withLine (·.set x blank)) (x := x - 1)
      (by omega)
    refine .bind_eq hcell ?_
    rw [if_pos (hwidth ▸ hwide.2), set?_eq (by omega)]
    exact .pure rfl
  · obtain ⟨cell, hcell, hwidth⟩ := get?_eq (row.withLine (·.set x blank)) (x := x - 1)
      (by omega)
    refine .bind_eq hcell ?_
    rw [if_neg fun hcell2 => hwide ⟨hpos, hwidth.trans hcell2⟩]
    exact .pure rfl
  · exact absurd (‹0 < x ∧ _›).1 hpos
  · exact .pure rfl

theorem fixDeleted?_line {row : Row} {x cols : Nat} (hx : x < cols) (hlen : row.len = cols)
    (blank : Cell) :
    Returns (fixDeleted? x cols blank row) (·.toLine = Display.fixDeleted x blank row.toLine) := by
  have hx' : x < row.len := by omega
  obtain ⟨cell, hcell, hwidth⟩ := get?_eq row hx'
  unfold fixDeleted? Display.fixDeleted
  rw [if_pos hx, hwidth]
  refine .bind_eq hcell ?_
  split_ifs
  · exact blankContinuation?_line hx' blank
  · exact .pure rfl

theorem fixInserted?_line {row : Row} {last : Nat} (hlast : last < row.len) (blank : Cell) :
    Returns (fixInserted? last blank row)
      (·.toLine = Display.fixInserted last blank row.toLine) := by
  obtain ⟨cell, hcell, hwidth⟩ := get?_eq row hlast
  unfold fixInserted? Display.fixInserted
  rw [hwidth]
  refine .bind_eq hcell ?_
  split_ifs
  · rw [set?_eq hlast]
    exact .pure rfl
  · exact blankContinuation?_line hlast blank
  · exact .pure rfl

theorem editRow?_shows {g : Grid} {v : Sheet} {x y n : Nat} {shift mend : Row → Option Row}
    {F M : Line → Line} (h : g.Shows v) (hv : v.Fits) (hx : x < v.cols) (hy : y < v.rows)
    (hf : ∀ row : Row, row.len = v.cols → Returns (shift row) (·.toLine = F row.toLine))
    (hF : ∀ line, line.len = v.cols → (F line).len = v.cols)
    (hm : ∀ row : Row, row.len = v.cols → Returns (mend row) (·.toLine = M row.toLine)) :
    Returns (editRow? g x y n shift mend)
      (·.Shows (v.modifyLine y fun l => M (F^[n] (l.fixupWideCharAt v.cols x)))) := by
  have hv₂ := Grid.Shows.then_fits (y := y) hv fun line => line.len_fixupWideCharAt v.cols x
  refine .bind (h.prepareAddressedWrite? hv y) fun g₁ h₁ => ?_
  refine .bind (h₁.fixupWideCharAt? hv hx hy) fun g₂ h₂ => ?_
  refine .bind (times_modifyRow?_shows h₂ hv₂ hy hf hF n) fun g₃ h₃ => ?_
  have hv₃ := hv₂.modifyLine y (f := F^[n]) fun line hline => Display.len_iterate hF n hline
  refine (modifyRow?_shows h₃ hv₃ hy hm).mono fun g₄ h₄ => ?_
  rw [Sheet.modifyLine_modifyLine, Sheet.modifyLine_modifyLine] at h₄
  exact h₄

theorem Shows.csiDeleteCharacter? (h : t.Shows d) (hd : d.Ok) (n : Nat) :
    Returns (t.csiDeleteCharacter? n) (·.Shows (d.csiDeleteCharacter n)) := by
  refine h.withBlank? hd (f := fun blank t => if t.grid.cursorY < t.grid.rows then
      t.withGrid? (editRow? · t.grid.cursorX t.grid.cursorY
        (min n (t.grid.cols - t.grid.cursorX)) (deleteCell? t.grid.cursorX blank)
        (fixDeleted? t.grid.cursorX t.grid.cols blank)) else some t)
    (F := fun blank d => d.withSheet fun v =>
      v.modifyLine v.cursorY (Display.deleteCells v.cols v.cursorX n blank)) ?_
  intro blank t d h hd
  have hx : t.grid.cursorX = d.sheet.cursorX := congrArg Frame.cursorX h.frame
  have hy : t.grid.cursorY = d.sheet.cursorY := congrArg Frame.cursorY h.frame
  have hcx := hd.fits.cursorX
  rw [hx, hy, h.grid.rows_eq, h.grid.cols_eq, if_pos hd.fits.cursorY]
  refine h.withGrid? (editRow?_shows (F := fun l => (l.remove d.sheet.cursorX).push blank)
    h.grid hd.fits hcx hd.fits.cursorY ?_ ?_ fun row hlen => fixDeleted?_line hcx hlen blank)
  · intro row hlen
    unfold deleteCell? Row.remove?
    rw [if_pos (by omega)]
    exact .bind_eq rfl (.pure rfl)
  · intro line hlen
    rw [Line.len_push, Line.len_remove _ (by omega)]
    omega

theorem Shows.csiInsertCharacter? (h : t.Shows d) (hd : d.Ok) (n : Nat) :
    Returns (t.csiInsertCharacter? n) (·.Shows (d.csiInsertCharacter n)) := by
  refine h.withBlank? hd (f := fun blank t => if t.grid.cursorY < t.grid.rows then
      t.withGrid? (editRow? · t.grid.cursorX t.grid.cursorY
        (min n (t.grid.cols - t.grid.cursorX)) (insertCell? t.grid.cursorX blank)
        (fixInserted? (t.grid.cols - 1) blank)) else some t)
    (F := fun blank d => d.withSheet fun v =>
      v.modifyLine v.cursorY (Display.insertCells v.cols v.cursorX n blank)) ?_
  intro blank t d h hd
  have hx : t.grid.cursorX = d.sheet.cursorX := congrArg Frame.cursorX h.frame
  have hy : t.grid.cursorY = d.sheet.cursorY := congrArg Frame.cursorY h.frame
  have hcx := hd.fits.cursorX
  rw [hx, hy, h.grid.rows_eq, h.grid.cols_eq, if_pos hd.fits.cursorY]
  refine h.withGrid? (editRow?_shows (F := fun l => l.pop.insert d.sheet.cursorX blank)
    h.grid hd.fits hcx hd.fits.cursorY ?_ ?_ fun row hlen => fixInserted?_line (by omega) blank)
  · intro row hlen
    have hpop : (row.withLine (·.pop)).len = row.len - 1 := Line.len_pop _
    unfold insertCell? Row.insert?
    rw [if_pos (by omega)]
    exact .pure rfl
  · intro line hlen
    rw [Line.len_insert _ _ (by rw [Line.len_pop]; omega), Line.len_pop]
    omega

theorem shiftRows?_shows {g : Grid} {v : Sheet} (h : g.Shows v) (hv : v.Fits) (n : Nat)
    {out into y bottom : Nat} (hout : out < v.rows) (hinto : into < v.rows) (hy : y ≤ bottom)
    (hbottom : bottom < v.rows) (blank : Cell) :
    Returns (shiftRows? g n out into y bottom blank)
      (·.Shows (Display.shiftLines v n out into blank)) := by
  refine (Returns.times_sim (R := fun g w => g.Shows w ∧ w.Fits ∧ w.toFrame = v.toFrame)
    ⟨h, hv, rfl⟩ ?_).mono fun g' hg' => hg'.1
  rintro g w ⟨hg, hw, hframe⟩
  have hrows : w.rows = v.rows := congrArg Frame.rows hframe
  have hcount : g.visibleRowCount = w.lines.length := by
    rw [Grid.visibleRowCount, hg.length, hg.boundary]
    omega
  have hlen := hw.rows
  rw [hcount, if_pos ⟨hy, by omega⟩]
  have hr := hg.removeVisibleRow out
  have hrlen := Sheet.length_removeLine (v := w) (y := out) (by omega)
  refine (hr.insertBlank? (y := into) (by omega) blank).mono fun g' hg' => ⟨hg', ?_, hframe⟩
  exact hw.shift (by omega) (by omega) blank

theorem Shows.csiDeleteLines? (h : t.Shows d) (hd : d.Ok) (n : Nat) :
    Returns (t.csiDeleteLines? n) (·.Shows (d.csiDeleteLines n)) := by
  have hd₁ := (Display.effect_blankCell hd).ok
  unfold Terminal.csiDeleteLines? Display.csiDeleteLines
  refine .bind (h.blankCell? hd) fun ⟨blank, t₁⟩ ⟨hblank, h₁⟩ => ?_
  dsimp only at hblank h₁ ⊢
  subst hblank
  rw [h₁.frame]
  split_ifs with hin
  · have hbottom := hd₁.fits.bottom
    have h₂ := h₁.setWrapPending false
    have hd₂ := (Display.Effect.withFrame hd₁ (f := fun f => { f with wrapPending := false })
      (Frame.moves_wrap _ false)).ok
    exact h₂.withGrid? (shiftRows?_shows h₂.grid hd₂.fits _ (hin.2.trans_lt hbottom) hbottom
      hin.2 hbottom _)
  · exact .pure h₁

theorem Shows.csiInsertLines? (h : t.Shows d) (hd : d.Ok) (n : Nat) :
    Returns (t.csiInsertLines? n) (·.Shows (d.csiInsertLines n)) := by
  have hd₁ := (Display.effect_blankCell hd).ok
  unfold Terminal.csiInsertLines? Display.csiInsertLines
  refine .bind (h.blankCell? hd) fun ⟨blank, t₁⟩ ⟨hblank, h₁⟩ => ?_
  dsimp only at hblank h₁ ⊢
  subst hblank
  rw [h₁.frame]
  split_ifs with hin
  · have hbottom := hd₁.fits.bottom
    have h₂ := h₁.setWrapPending false
    have hd₂ := (Display.Effect.withFrame hd₁ (f := fun f => { f with wrapPending := false })
      (Frame.moves_wrap _ false)).ok
    exact h₂.withGrid? (shiftRows?_shows h₂.grid hd₂.fits _ hbottom (hin.2.trans_lt hbottom)
      hin.2 hbottom _)
  · exact .pure h₁

theorem Shows.csiSetScrollingRegion (h : t.Shows d) (top bottom : Nat) :
    (t.csiSetScrollingRegion top bottom).Shows (d.csiSetScrollingRegion top bottom) := by
  unfold Terminal.csiSetScrollingRegion Display.csiSetScrollingRegion
  cases hs : t.grid.toFrame.setScrollingRegion top bottom with
  | none =>
      refine ⟨⟨h.frame.trans ?_, h.grid.cells, h.grid.boundary⟩, h.state⟩
      rw [h.frame] at hs
      show _ = (d.sheet.toFrame.setScrollingRegion top bottom).getD _
      rw [hs]
      rfl
  | some f =>
      refine ⟨⟨?_, h.grid.cells, h.grid.boundary⟩, h.state⟩
      rw [h.frame] at hs
      show f = (d.sheet.toFrame.setScrollingRegion top bottom).getD _
      rw [hs]
      rfl

theorem Shows.setDecPrivateMode? (h : t.Shows d) (hd : d.Ok) (mode : Nat) (enable : Bool) :
    Returns (t.setDecPrivateMode? mode enable) (·.Shows (d.setDecPrivateMode mode enable)) := by
  have hmodes : ∀ f : TerminalModes → TerminalModes,
      Returns (some (t.withModes f)) (·.Shows (d.withModes f)) := fun f => .pure (h.withModes f)
  unfold Terminal.setDecPrivateMode? Display.setDecPrivateMode
  split
  · exact hmodes _
  · have h₁ := h.withModes fun m => { m with originMode := enable }
    cases enable with
    | false => exact .pure h₁
    | true => exact .pure (h₁.moveCursor fun f =>
        { f with cursorX := 0, cursorY := f.scrollTop, wrapPending := false })
  · exact hmodes _
  · exact .pure (h.withFrame fun f => { f with cursorVisible := enable })
  · exact hmodes _
  · exact hmodes _
  · exact hmodes _
  · exact hmodes _
  · exact hmodes _
  · exact hmodes _
  · cases enable with
    | false => exact .pure (h.restoreCursor false)
    | true => exact .pure (h.saveCursor none false)
  · exact hmodes _
  · cases enable with
    | false => exact h.exitAltScreen? hd true
    | true => exact h.enterAltScreen? true
  · cases enable with
    | false => exact h.exitAltScreen? hd false
    | true => exact h.enterAltScreen? false
  · cases enable with
    | false => exact h.exitAltScreen? hd false
    | true => exact h.enterAltScreen? false
  · first
      | exact .pure h
      | split <;> first | contradiction | exact .pure h

theorem Shows.csiSetDecPrivateMode? (h : t.Shows d) (hd : d.Ok) (ps : List (List Nat))
    (enable : Bool) :
    Returns (t.csiSetDecPrivateMode? ps enable) (·.Shows (d.csiSetDecPrivateMode ps enable)) := by
  refine (Returns.foldlM_sim (R := fun t d => t.Shows d ∧ d.Ok) ⟨h, hd⟩ ?_).mono fun _ ht => ht.1
  rintro t d p - ⟨h, hd⟩
  cases p with
  | nil => exact .pure ⟨h, hd⟩
  | cons mode rest =>
      exact (h.setDecPrivateMode? hd mode enable).mono fun _ ht =>
        ⟨ht, (Display.effect_setDecPrivateMode hd mode enable).ok⟩

theorem Shows.csiWindow? (h : t.Shows d) (hd : d.Ok) (cmd scope : Nat) :
    Returns (t.csiWindow? cmd scope) (·.Shows (d.csiWindow cmd scope)) := by
  have htitle : t.state.title = d.state.title := congrArg ScreenState.title h.state
  have hstack : t.state.titleStack = d.state.titleStack := congrArg ScreenState.titleStack h.state
  have htrunc := Display.truncate?_of_le hd.title
  unfold Terminal.csiWindow? Display.csiWindow
  rw [htitle, hstack]
  split_ifs with hscope hpush hpop
  · rw [htrunc]
    refine .bind_eq rfl (.pure (h.withState fun s => ?_))
    rfl
  · cases d.state.titleStack with
    | nil => exact .pure h
    | cons title rest => exact .pure (h.withState fun s => rfl)
  · exact .pure h
  · exact .pure h

theorem cursorReport_eq (h : t.Shows d) : t.cursorReport = Display.cursorReport d.sheet.toFrame := by
  unfold Terminal.cursorReport
  rw [h.frame]
  rfl

theorem Shows.csiDispatch? (charWidth : Char → Nat) (h : t.Shows d) (hd : d.Ok)
    (ps : List (List Nat)) (intermediates : Bytes) (action : Char) :
    Returns (t.csiDispatch? charWidth ps intermediates action)
      (·.Shows (d.csiDispatch charWidth ps intermediates action)) := by
  have hrows := h.grid.rows_eq
  have hlast : t.state.lastPrintedChar = d.state.lastPrintedChar :=
    congrArg ScreenState.lastPrintedChar h.state
  have hmove : ∀ f : Frame → Frame, Returns (some (t.moveCursor f)) (·.Shows (d.withFrame f)) :=
    fun f => .pure (h.moveCursor f)
  unfold Terminal.csiDispatch? Display.csiDispatch
  dsimp only
  split
  · exact hmove _
  · exact hmove _
  · exact hmove _
  · exact hmove _
  · exact hmove _
  · exact hmove _
  · exact hmove _
  · exact hmove _
  · exact hmove _
  · exact hmove _
  · exact h.csiEraseDisplay? hd _
  · exact h.csiEraseLine? hd _
  · exact h.csiEraseCharacter? hd _
  · exact h.csiDeleteCharacter? hd _
  · exact h.csiInsertCharacter? hd _
  · rw [hlast]
    exact Shows.times (fun t d h hd => h.print? charWidth hd _)
      (fun d hd => (Display.effect_print charWidth hd _).ok) h hd _
  · exact .pure (h.withState fun s => rfl)
  · rw [cursorReport_eq h]
    exact .pure (.ite (h.pushResponse _) h)
  · exact .pure (.ite (h.pushResponse _) (.ite (h.pushResponse _) h))
  · exact .pure (.ite (h.withModes _) h)
  · unfold Terminal.csiScrollUpN?
    rw [hrows]
    exact Shows.times (fun t d h hd => h.scrollUp? hd)
      (fun d hd => (Display.effect_scrollUp hd).ok) h hd _
  · unfold Terminal.csiScrollDownN?
    rw [hrows]
    exact Shows.ite? (Shows.times (fun t d h hd => h.scrollDown? hd)
      (fun d hd => (Display.effect_scrollDown hd).ok) h hd _) (.pure h)
  · exact h.csiDeleteLines? hd _
  · exact h.csiInsertLines? hd _
  · rw [hrows]
    exact .pure (.ite (h.csiSetScrollingRegion _ _) h)
  · exact .pure (.ite (h.saveCursor none false) h)
  · exact .pure (.ite (h.restoreCursor false) h)
  · refine .pure (.ite ?_ h)
    generalize param ps 0 0 = n
    split
    · exact h.withFrame fun f => f.clearTabStop f.cursorX
    · exact h.withFrame (·.clearAllTabStops)
    · first
        | exact h
        | split <;> first | contradiction | exact h
  · exact h.csiWindow? hd _ _
  · exact Shows.ite? (h.csiSetDecPrivateMode? hd _ _) (.pure h)
  · exact Shows.ite? (h.csiSetDecPrivateMode? hd _ _) (.pure h)
  · first
      | exact .pure h
      | split <;> first | contradiction | exact .pure h

/-! ### Escape sequences and operating system commands -/

theorem mainLimit_eq (h : t.Shows d) : t.mainLimit = d.mainLimit := by
  have hsaved : t.state.savedGrid.map SavedGrid.shown = d.state.savedGrid :=
    congrArg ScreenState.savedGrid h.state
  unfold Terminal.mainLimit Display.mainLimit
  rw [← hsaved]
  cases t.state.savedGrid with
  | none => exact congrArg Frame.scrollbackLimit h.frame
  | some saved => rfl

theorem resetGrid_shows {g : Grid} {v : Sheet} (h : g.Shows v) (limit : Nat) :
    (resetGrid g limit).Shows (v.withFrame (Display.resetFrame · limit)) :=
  (((h.withFrame fun f => { f with
      cursorX := 0
      cursorY := 0
      cursorVisible := true
      modes := {}
      scrollbackLimit := limit
      styleTable := {} }).tokens g.pendingWrap g.sequentialEdge false).withFrame
    fun f => f.resetScrollRegion.resetTabStops).setWrapPending false

theorem Shows.fullReset? (h : t.Shows d) (hd : d.Ok) :
    Returns t.fullReset? (·.Shows d.fullReset) := by
  have hfits : (d.sheet.withFrame (Display.resetFrame · d.mainLimit)).Fits :=
    ⟨Display.inside_resetFrame _ _, hd.fits.rows, hd.fits.cols⟩
  have h₁ := resetGrid_shows h.grid d.mainLimit
  unfold Terminal.fullReset?
  rw [mainLimit_eq h]
  dsimp only
  rw [h₁.rows_eq]
  refine .bind (h₁.eraseRows? hfits (Nat.zero_le _) le_rfl {}) fun g₂ h₂ => ?_
  refine .bind h₂.clearScrollback? fun g₃ h₃ => .pure ?_
  have hreset : Terminal.Shows { t with grid := g₃ } { d with sheet := _ } := ⟨h₃, h.state⟩
  exact (hreset.withState (f := (·.reset)) (F := (·.reset)) fun s => rfl).pushPassthrough _

theorem Shows.alignmentPattern? (h : t.Shows d) (hd : d.Ok) :
    Returns t.alignmentPattern? (·.Shows d.alignmentPattern) := by
  have h₁ := h.withGrid (f := fun g =>
      { g.withFrame (·.resetScrollRegion) with cursorX := 0, cursorY := 0 }.setWrapPending false)
    (((h.grid.withFrame (·.resetScrollRegion)).withFrame fun f =>
      { f with cursorX := 0, cursorY := 0 }).setWrapPending false)
  have hd₁ : Display.Ok (d.withFrame fun f =>
      { f.resetScrollRegion with cursorX := 0, cursorY := 0, wrapPending := false }) :=
    (Display.Effect.withFrame hd (Frame.moves_origin _)).ok
  have hd₂ := (Display.effect_internWithGc hd₁ {}).ok
  refine .bind (h₁.internWithGc? hd₁ {}) fun ⟨id, t₂⟩ ⟨hid, h₂⟩ => ?_
  dsimp only at hid h₂ ⊢
  subst hid
  rw [h₂.grid.rows_eq]
  refine h₂.withGrid? (f := fun g => (List.range _).foldlM _ g) ?_
  refine (Returns.foldlM_sim (R := fun g v => g.Shows v ∧ v.Fits ∧
    v.rows = (Display.internWithGc _ {}).2.sheet.rows) ⟨h₂.grid, hd₂.fits, rfl⟩ ?_).mono fun _ hg => hg.1
  rintro g v y hy ⟨hg, hv, hrows⟩
  rw [hg.cols_eq]
  refine (Returns.foldlM_sim (R := fun g w => g.Shows w ∧ w.Fits ∧ w.toFrame = v.toFrame)
    ⟨hg, hv, rfl⟩ ?_).mono fun g' hg' => ⟨hg'.1, hg'.2.1, (congrArg Frame.rows hg'.2.2).trans hrows⟩
  rintro g w x hx ⟨hg, hw, hframe⟩
  rw [List.mem_range] at hx hy
  have hx' : x < w.cols := hx.trans_eq (congrArg Frame.cols hframe).symm
  have hy' : y < w.rows := hy.trans_eq (hrows.symm.trans (congrArg Frame.rows hframe).symm)
  refine (hg.setCell? hw hx' hy' false _).mono fun g' hg' => ⟨hg', ?_, hframe⟩
  exact Grid.Shows.then_fits hw fun line => by simp

theorem Shows.reverseIndex? (h : t.Shows d) (hd : d.Ok) :
    Returns t.reverseIndex? (·.Shows d.reverseIndex) := by
  have h₁ := h.withGrid (f := (·.invalidateProvenanceKeepRaw)) h.grid.invalidateProvenanceKeepRaw
  unfold Terminal.reverseIndex? Display.reverseIndex
  dsimp only
  generalize t.withGrid (·.invalidateProvenanceKeepRaw) = t at h₁
  rw [h₁.frame]
  split_ifs
  · exact h₁.scrollDown? hd
  · exact .pure (h₁.withFrame fun f => { f with cursorY := f.cursorY - 1 })
  · exact .pure h₁

theorem Shows.escDispatch? (h : t.Shows d) (hd : d.Ok) (intermediates : Bytes) (byte : UInt8) :
    Returns (t.escDispatch? intermediates byte) (·.Shows (d.escDispatch intermediates byte)) := by
  have hmodes : ∀ f : TerminalModes → TerminalModes,
      Returns (some (t.withModes f)) (·.Shows (d.withModes f)) := fun f => .pure (h.withModes f)
  unfold Terminal.escDispatch? Display.escDispatch
  generalize intermediates.map UInt8.toNat = bytes
  generalize byte.toNat = b
  split
  · exact .pure (h.withFrame fun f => f.setTabStop f.cursorX)
  · exact (h.setWrapPending false).lineFeed?
      (Display.Effect.withFrame hd (f := fun f => { f with wrapPending := false })
        (Frame.moves_wrap _ false)).ok
  · have h₁ := h.withGrid (f := fun g => { g with cursorX := 0 }.setWrapPending false)
      ((h.grid.withFrame fun f => { f with cursorX := 0 }).setWrapPending false)
    exact h₁.lineFeed? (Display.Effect.withFrame hd (f := fun f =>
      { f with cursorX := 0, wrapPending := false }) (Frame.moves_return _)).ok
  · exact h.reverseIndex? hd
  · exact .pure (h.saveCursor none false)
  · exact .pure (h.restoreCursor false)
  · exact h.fullReset? hd
  · exact hmodes _
  · exact hmodes _
  · exact hmodes _
  · exact hmodes _
  · exact hmodes _
  · exact hmodes _
  · exact h.alignmentPattern? hd
  · first
      | exact .pure h
      | split <;> first | contradiction | exact .pure h

/-- A title that is longer than the limit is cut at a byte, which must be a character
boundary. -/
def TitleFits (params : List Bytes) : Prop :=
  (oscNumber params = some 0 ∨ oscNumber params = some 2) →
    ∀ title ∈ (params[1]?).bind decodeUtf8,
      maxTitle < byteLen title → (byteSlice? title maxTitle).isSome

theorem Shows.setTitle? (h : t.Shows d) {title : List Char}
    (hfits : maxTitle < byteLen title → (byteSlice? title maxTitle).isSome) :
    Returns (do
      let title ← if byteLen title ≤ maxTitle then some title else byteSlice? title maxTitle
      some (t.withState fun s => { s with title }))
      (·.Shows (d.withState fun s => { s with
        title := if byteLen title ≤ maxTitle then title
          else (byteSlice? title maxTitle).getD [] })) := by
  split_ifs with hle
  · exact .bind_eq rfl (.pure (h.withState fun s => rfl))
  · obtain ⟨cut, hcut⟩ := Option.isSome_iff_exists.mp (hfits (by omega))
    rw [hcut]
    exact .bind_eq rfl (.pure (h.withState fun s => rfl))

theorem Shows.oscTitle? (h : t.Shows d) (text : Option (List Char)) :
    (∀ title ∈ text, maxTitle < byteLen title → (byteSlice? title maxTitle).isSome) →
    Returns (match text with
      | some title => do
          let title ← if byteLen title ≤ maxTitle then some title else byteSlice? title maxTitle
          some (t.withState fun s => { s with title })
      | none => some t)
    (·.Shows (match text with
      | some title => d.withState fun s => { s with
          title := if byteLen title ≤ maxTitle then title
            else (byteSlice? title maxTitle).getD [] }
      | none => d)) := by
  intro hcut
  cases text with
  | none => exact .pure h
  | some title => exact h.setTitle? (hcut title rfl)

theorem Shows.oscDispatch? (h : t.Shows d) (params : List Bytes) (bell : Bool)
    (hfits : TitleFits params) :
    Returns (t.oscDispatch? params bell) (·.Shows (d.oscDispatch params bell)) := by
  have hnote : Returns (some (t.withState (·.pushNotification (oscBytes params bell))))
      (·.Shows (d.withState (·.pushNotification (oscBytes params bell)))) := by
    refine .pure (h.withState fun s => ?_)
    rfl
  unfold Terminal.oscDispatch? Display.oscDispatch
  cases params.isEmpty with
  | true => exact .pure h
  | false =>
      simp only [Bool.false_eq_true, if_false]
      unfold TitleFits at hfits
      generalize oscNumber params = n at hfits
      split
      · exact h.oscTitle? _ (hfits (.inl rfl))
      · exact h.oscTitle? _ (hfits (.inr rfl))
      · exact hnote
      · exact hnote
      · exact hnote
      · first
          | exact .pure (h.pushPassthrough _)
          | split <;> first | contradiction | exact .pure (h.pushPassthrough _)

end Terminal

end QuorumDispatch.Screen
