import QuorumDispatch.Screen.Sheet
import Mathlib.Tactic.Common

/-!
The geometry of the display, which every operation keeps: as many lines as rows and
as many cells a line as columns, the cursor and the scroll region inside, a tab stop
for each column, a history within the limit of the main screen, and titles that a
cut leaves alone.
-/

namespace QuorumDispatch.Screen

open Lib

/-! ### The frame -/

def StyleTable.SlotsOk (t : StyleTable) : Prop := ∀ id ∈ t.freeSlots, id < t.styles.length

namespace StyleTable

variable {t : StyleTable}

theorem SlotsOk.intern (h : t.SlotsOk) (s : Style) :
    Returns (t.intern s) fun r => r.2.SlotsOk := by
  unfold StyleTable.intern
  split
  next => exact .pure h
  next =>
    split
    next id _ => exact .pure h
    next =>
      split
      next id free hfree =>
        have hmem : ∀ k ∈ free, k < t.styles.length := fun k hk => h k (by simp [hfree, hk])
        rw [if_pos (h id (by simp [hfree]))]
        refine .pure fun k hk => ?_
        simpa using hmem k hk
      next hfree =>
        split
        · exact .pure h
        · refine .pure fun k hk => ?_
          rw [hfree] at hk
          simp at hk

theorem SlotsOk.reclaim (t : StyleTable) (live : List Bool) : (t.reclaim live).SlotsOk := by
  have hfold : ∀ (ids : List Nat) (t' : StyleTable), (∀ id ∈ ids, id < t'.styles.length) →
      t'.SlotsOk → (ids.foldl (reclaimSlot live) t').SlotsOk := by
    intro ids
    induction ids with
    | nil => exact fun t' _ h => h
    | cons id ids ih =>
        intro t' hids h
        refine ih _ ?_ ?_
        · intro k hk
          unfold reclaimSlot
          split_ifs <;> exact hids k (by simp [hk])
        · unfold reclaimSlot
          split_ifs
          · intro k hk
            rcases List.mem_cons.mp hk with rfl | hk
            · exact hids k (by simp)
            · exact h k hk
          · exact h
  refine hfold _ _ (fun id hid => ?_) (fun k hk => by simp at hk)
  rw [List.mem_range'_1] at hid
  show id < t.styles.length
  omega

end StyleTable

theorem compactTable_slotsOk {t : StyleTable} (h : t.SlotsOk) (lines : List Line) :
    (compactTable t lines).SlotsOk := by
  unfold compactTable
  split_ifs
  · exact h
  · exact .reclaim _ _

structure Frame.Inside (f : Frame) : Prop where
  cursorX : f.cursorX < f.cols
  cursorY : f.cursorY < f.rows
  top : f.scrollTop ≤ f.scrollBottom
  bottom : f.scrollBottom < f.rows
  tabs : f.tabStops.length = f.cols
  slots : f.styleTable.SlotsOk

namespace Frame

variable {f : Frame}

theorem cols_pos (f : Frame) : 0 < f.cols := f.size.cols_pos

theorem rows_pos (f : Frame) : 0 < f.rows := f.size.rows_pos

/-- A frame after an operation that leaves the dimensions and the scrollback alone. -/
structure Moves (f f' : Frame) : Prop where
  size : f'.size = f.size
  limit : f'.scrollbackLimit = f.scrollbackLimit
  pending : f'.pendingStart = f.pendingStart
  captured : f'.captured = f.captured
  inside : f.Inside → f'.Inside

theorem Moves.trans {f' f'' : Frame} (h : f.Moves f') (h' : f'.Moves f'') : f.Moves f'' where
  size := h'.size.trans h.size
  limit := h'.limit.trans h.limit
  pending := h'.pending.trans h.pending
  captured := h'.captured.trans h.captured
  inside hf := h'.inside (h.inside hf)

/-- Only the cursor and what has no bearing on the geometry changed. -/
theorem Moves.of_cursor {f' : Frame} (hsize : f'.size = f.size)
    (hlimit : f'.scrollbackLimit = f.scrollbackLimit) (hpending : f'.pendingStart = f.pendingStart)
    (htop : f'.scrollTop = f.scrollTop) (hbottom : f'.scrollBottom = f.scrollBottom)
    (hcaptured : f'.captured = f.captured) (htabs : f'.tabStops = f.tabStops) (htable : f'.styleTable = f.styleTable)
    (hcursor : f.Inside → f'.cursorX < f.cols ∧ f'.cursorY < f.rows) : f.Moves f' where
  size := hsize
  limit := hlimit
  pending := hpending
  captured := hcaptured
  inside h := by
    have hcols : f'.cols = f.cols := congrArg TerminalSize.cols hsize
    have hrows : f'.rows = f.rows := congrArg TerminalSize.rows hsize
    obtain ⟨hx, hy⟩ := hcursor h
    exact
      { cursorX := hcols ▸ hx
        cursorY := hrows ▸ hy
        top := by rw [htop, hbottom]; exact h.top
        bottom := by rw [hbottom, hrows]; exact h.bottom
        tabs := by rw [htabs, hcols]; exact h.tabs
        slots := by rw [htable]; exact h.slots }

theorem moves_modes (f : Frame) (modes : TerminalModes) : f.Moves { f with modes } :=
  .of_cursor rfl rfl rfl rfl rfl rfl rfl rfl fun h => ⟨h.cursorX, h.cursorY⟩

theorem moves_wrap (f : Frame) (wrapPending : Bool) : f.Moves { f with wrapPending } :=
  .of_cursor rfl rfl rfl rfl rfl rfl rfl rfl fun h => ⟨h.cursorX, h.cursorY⟩

theorem moves_cursorUp (f : Frame) (n : Nat) : f.Moves (f.cursorUp n) := by
  refine .of_cursor rfl rfl rfl rfl rfl rfl rfl rfl fun h => ⟨h.cursorX, ?_⟩
  have := h.cursorY
  simp only [cursorUp]
  split_ifs <;> omega

theorem moves_cursorDown (f : Frame) (n : Nat) : f.Moves (f.cursorDown n) := by
  refine .of_cursor rfl rfl rfl rfl rfl rfl rfl rfl fun h => ⟨h.cursorX, ?_⟩
  have := h.bottom
  have := f.rows_pos
  simp only [cursorDown]
  split_ifs <;> omega

theorem moves_cursorForward (f : Frame) (n : Nat) : f.Moves (f.cursorForward n) := by
  refine .of_cursor rfl rfl rfl rfl rfl rfl rfl rfl fun h => ⟨?_, h.cursorY⟩
  have := f.cols_pos
  simp only [cursorForward]
  omega

theorem moves_cursorBack (f : Frame) (n : Nat) : f.Moves (f.cursorBack n) := by
  refine .of_cursor rfl rfl rfl rfl rfl rfl rfl rfl fun h => ⟨?_, h.cursorY⟩
  have := h.cursorX
  simp only [cursorBack]
  omega

theorem moves_home (f : Frame) : f.Moves { f with cursorX := 0 } :=
  .of_cursor rfl rfl rfl rfl rfl rfl rfl rfl fun h => ⟨f.cols_pos, h.cursorY⟩

/-- A carriage return. -/
theorem moves_return (f : Frame) : f.Moves { f with cursorX := 0, wrapPending := false } :=
  .of_cursor rfl rfl rfl rfl rfl rfl rfl rfl fun h => ⟨f.cols_pos, h.cursorY⟩

theorem moves_cursorHorizontalAbsolute (f : Frame) (n : Nat) :
    f.Moves (f.cursorHorizontalAbsolute n) := by
  refine .of_cursor rfl rfl rfl rfl rfl rfl rfl rfl fun h => ⟨?_, h.cursorY⟩
  have := f.cols_pos
  simp only [cursorHorizontalAbsolute]
  omega

theorem moves_linePositionAbsolute (f : Frame) (n : Nat) : f.Moves (f.linePositionAbsolute n) := by
  refine .of_cursor rfl rfl rfl rfl rfl rfl rfl rfl fun h => ⟨h.cursorX, ?_⟩
  have := h.bottom
  have := f.rows_pos
  simp only [linePositionAbsolute]
  split_ifs <;> omega

theorem moves_cursorPosition (f : Frame) (row col : Nat) : f.Moves (f.cursorPosition row col) := by
  refine (f.moves_linePositionAbsolute row).trans (.of_cursor rfl rfl rfl rfl rfl rfl rfl rfl ?_)
  intro h
  refine ⟨?_, h.cursorY⟩
  have := f.cols_pos
  show min (col - 1) (f.cols - 1) < f.cols
  omega

theorem nextTabStop_lt (h : f.Inside) (col : Nat) : f.nextTabStop col < f.cols := by
  unfold nextTabStop
  split
  next c hc =>
      have hmem := List.mem_of_find?_eq_some hc
      rw [List.mem_range'_1, h.tabs] at hmem
      omega
  next =>
      have := f.cols_pos
      omega

theorem inside_resetScrollRegion (hx : f.cursorX < f.cols) (hy : f.cursorY < f.rows)
    (htabs : f.tabStops.length = f.cols) (hslots : f.styleTable.SlotsOk) :
    f.resetScrollRegion.Inside where
  cursorX := hx
  cursorY := hy
  top := Nat.zero_le _
  bottom := by
    have := f.rows_pos
    show f.rows - 1 < f.rows
    omega
  tabs := htabs
  slots := hslots

theorem moves_resetScrollRegion (f : Frame) : f.Moves f.resetScrollRegion where
  size := rfl
  limit := rfl
  pending := rfl
  captured := rfl
  inside h := inside_resetScrollRegion h.cursorX h.cursorY h.tabs h.slots

/-- The origin of a screen without scroll region. -/
theorem moves_origin (f : Frame) : f.Moves
    { f.resetScrollRegion with cursorX := 0, cursorY := 0, wrapPending := false } :=
  f.moves_resetScrollRegion.trans
    (.of_cursor rfl rfl rfl rfl rfl rfl rfl rfl fun _ => ⟨f.cols_pos, f.rows_pos⟩)

theorem moves_tabs (f : Frame) {tabStops : List Bool} (h : tabStops.length = f.tabStops.length) :
    f.Moves { f with tabStops } where
  size := rfl
  limit := rfl
  pending := rfl
  captured := rfl
  inside hf := { hf with tabs := h.trans hf.tabs }

theorem moves_table (f : Frame) {styleTable : StyleTable}
    (h : f.styleTable.SlotsOk → styleTable.SlotsOk) : f.Moves { f with styleTable } where
  size := rfl
  limit := rfl
  pending := rfl
  captured := rfl
  inside hf := { hf with slots := h hf.slots }

theorem moves_setScrollingRegion (f : Frame) (top bottom : Nat) :
    f.Moves ((f.setScrollingRegion top bottom).getD f) := by
  unfold setScrollingRegion
  dsimp only
  split
  next hle =>
    refine ⟨rfl, rfl, rfl, rfl, fun h => ?_⟩
    have := f.rows_pos
    exact
      { cursorX := f.cols_pos
        cursorY := by
          show (if f.modes.originMode then top - 1 else 0) < f.rows
          split <;> omega
        top := hle
        bottom := by
          show min (bottom - 1) (f.rows - 1) < f.rows
          omega
        tabs := h.tabs
        slots := h.slots }
  next => exact ⟨rfl, rfl, rfl, rfl, id⟩

end Frame

/-! ### The sheet -/

structure Sheet.Fits (v : Sheet) : Prop extends Frame.Inside v.toFrame where
  rows : v.lines.length = v.rows
  cols : ∀ line ∈ v.lines, line.len = v.cols

/-- The sheet after `rows` went to the history and `evicted` lines left it at the other
end, which they only do beyond the limit. -/
structure Sheet.Scrolls (limit : Nat) (v v' : Sheet) (rows : List Line) (evicted : Nat) : Prop where
  history : v'.history = (v.history ++ rows).drop evicted
  captured : v'.captured = v.captured ++ rows
  pending : v'.pendingStart = v.pendingStart - evicted
  evicted_le : evicted ≤ v.history.length + rows.length - limit
  bound : rows ≠ [] → v'.history.length ≤ limit

namespace Sheet

variable {v : Sheet}

@[simp] theorem toFrame_modifyLine (v : Sheet) (y : Nat) (f : Line → Line) :
    (v.modifyLine y f).toFrame = v.toFrame := rfl

@[simp] theorem length_lines_modifyLine (v : Sheet) (y : Nat) (f : Line → Line) :
    (v.modifyLine y f).lines.length = v.lines.length := by
  simp [modifyLine]

@[simp] theorem toFrame_eraseCells (v : Sheet) (y start stop : Nat) (blank : Cell) :
    (v.eraseCells y start stop blank).toFrame = v.toFrame := by
  unfold eraseCells
  split_ifs <;> rfl

@[simp] theorem toFrame_eraseRows (v : Sheet) (startY stopY : Nat) (blank : Cell) :
    (v.eraseRows startY stopY blank).toFrame = v.toFrame := by
  unfold eraseRows
  generalize List.range' startY (stopY - startY) = ys
  induction ys generalizing v with
  | nil => rfl
  | cons y ys ih => exact ih (v.modifyLine y (·.eraseAll blank))

@[simp] theorem eraseCells_min (v : Sheet) (y start stop : Nat) (blank : Cell) :
    v.eraseCells y start (min stop v.cols) blank = v.eraseCells y start stop blank := by
  simp [eraseCells]

theorem Fits.len (h : v.Fits) {y : Nat} (hy : y < v.lines.length) : v.lines[y].len = v.cols :=
  h.cols _ (List.getElem_mem hy)

theorem Fits.lt_length (h : v.Fits) {y : Nat} (hy : y < v.rows) : y < v.lines.length := by
  rw [h.rows]
  exact hy

theorem Fits.modifyLine (h : v.Fits) (y : Nat) {f : Line → Line}
    (hf : ∀ line, line.len = v.cols → (f line).len = v.cols) : (v.modifyLine y f).Fits where
  toInside := h.toInside
  rows := by simpa using h.rows
  cols := by
    intro line hline
    obtain ⟨i, hi, rfl⟩ := List.getElem_of_mem hline
    have hlen := h.len (y := i) (by simpa using hi)
    simp only [Sheet.modifyLine, List.getElem_modify]
    split
    · exact hf _ hlen
    · exact hlen

/-- Lines that came and went in equal number. -/
theorem Fits.withLines (h : v.Fits) {lines : List Line} (hlen : lines.length = v.lines.length)
    (hmem : ∀ line ∈ lines, line ∈ v.lines ∨ line.len = v.cols) : { v with lines }.Fits where
  toInside := h.toInside
  rows := hlen.trans h.rows
  cols := by
    intro line hline
    rcases hmem line hline with hold | hnew
    · exact h.cols line hold
    · exact hnew

theorem len_blankLine (v : Sheet) (fill : Cell) : (v.blankLine fill).len = v.cols := by
  simp [blankLine, Line.len]

/-- One line leaves and a blank one comes. -/
theorem Fits.shift (h : v.Fits) {out into : Nat} (hout : out < v.rows) (hinto : into < v.rows)
    (fill : Cell) : ((v.removeLine out).insertLine into (v.blankLine fill)).Fits := by
  have hrows := h.rows
  have hlen := List.length_eraseIdx_of_lt (h.lt_length hout)
  have hle : into ≤ (v.lines.eraseIdx out).length := by omega
  refine h.withLines ?_ fun line hline => ?_
  · show ((v.lines.eraseIdx out).insertIdx into _).length = _
    rw [List.length_insertIdx_of_le_length hle]
    omega
  · rcases (List.mem_insertIdx hle).mp hline with rfl | hmem
    · exact .inr (v.len_blankLine fill)
    · exact .inl (List.mem_of_mem_eraseIdx hmem)

theorem capture_toFrame (v : Sheet) :
    v.capture.toFrame = { v.toFrame with
      pendingStart := v.capture.pendingStart
      captured := v.captured ++ v.lines.take 1 } := by
  unfold capture
  split_ifs <;> rfl

@[simp] theorem capture_lines (v : Sheet) : v.capture.lines = v.lines.tail := by
  unfold capture
  split_ifs <;> rfl

/-- The history has no part in it. -/
theorem Fits.of_lines (h : v.Fits) {v' : Sheet} {p : Nat} {captured : List Line}
    (hframe : v'.toFrame = { v.toFrame with pendingStart := p, captured }) (hlines : v'.lines = v.lines) :
    v'.Fits := by
  obtain ⟨f, history, lines⟩ := v'
  dsimp only at hframe hlines
  subst hframe hlines
  exact ⟨⟨h.cursorX, h.cursorY, h.top, h.bottom, h.tabs, h.slots⟩, h.rows, h.cols⟩

theorem Scrolls.refl (limit : Nat) (v : Sheet) : v.Scrolls limit v [] 0 where
  history := by simp
  captured := by simp
  pending := by simp
  evicted_le := Nat.zero_le _
  bound h := absurd rfl h

theorem Scrolls.trans {limit e e' : Nat} {v' v'' : Sheet} {rows rows' : List Line}
    (h : v.Scrolls limit v' rows e) (h' : v'.Scrolls limit v'' rows' e') :
    v.Scrolls limit v'' (rows ++ rows') (e + e') := by
  have he := h.evicted_le
  have he' := h'.evicted_le
  have hlen : v'.history.length = v.history.length + rows.length - e := by
    simp [h.history]
  have hhist : v''.history = (v.history ++ (rows ++ rows')).drop (e + e') := by
    have hle : e ≤ (v.history ++ rows).length := by
      rw [List.length_append]
      omega
    rw [h'.history, h.history, ← List.append_assoc, ← List.drop_drop,
      List.drop_append_of_le_length hle]
  refine ⟨hhist, ?_, ?_, ?_, ?_⟩
  · rw [h'.captured, h.captured, List.append_assoc]
  · rw [h'.pending, h.pending, Nat.sub_sub]
  · rw [List.length_append]
    omega
  · intro hne
    rcases eq_or_ne rows' [] with rfl | hrows'
    · have hbound := h.bound (by simpa using hne)
      rw [h'.history]
      simp only [List.append_nil, List.length_drop]
      omega
    · exact h'.bound hrows'

end Sheet

/-! ### The display -/

/-- What is set aside of the main screen: lines of one width, and its scroll region. -/
structure SavedSheet.Ok (saved : SavedSheet) (region : Option (Nat × Nat)) : Prop where
  saveCols_pos : 0 < saved.saveCols
  cols : ∀ line ∈ saved.lines, line.len = saved.saveCols
  region : ∃ top bottom, region = some (top, bottom) ∧ top ≤ bottom ∧ bottom < saved.lines.length

structure Display.Ok (d : Display) : Prop where
  fits : d.sheet.Fits
  pending : d.sheet.pendingStart ≤ d.sheet.history.length
  history : d.sheet.history.length ≤ d.mainLimit
  main : d.state.inAltScreen = false → d.state.savedGrid = none
  alt : d.state.inAltScreen = true → d.sheet.scrollbackLimit = 0 ∧
    ∃ saved, d.state.savedGrid = some saved ∧ saved.Ok d.state.savedScrollRegion
  title : byteLen d.state.title ≤ maxTitle
  titleStack : ∀ title ∈ d.state.titleStack, byteLen title ≤ maxTitle

/-- What an operation does to a display in order: the display stays in order, the main
limit is the same, and the history grows by the rows that scrolled off; `cleared`
says that the history was dropped. -/
structure Display.Effect (cleared : Bool) (d d' : Display) : Prop where
  ok : d'.Ok
  limit : d'.mainLimit = d.mainLimit
  scrolls : ∃ rows evicted,
    (if cleared then d.sheet.clearScrollback else d.sheet).Scrolls d.mainLimit d'.sheet rows evicted

namespace Display

variable {d d' d'' : Display} {cleared : Bool}

theorem Effect.refl (h : d.Ok) : Effect false d d where
  ok := h
  limit := rfl
  scrolls := ⟨[], 0, .refl _ _⟩

theorem Effect.trans (h : Effect cleared d d') (h' : Effect false d' d'') :
    Effect cleared d d'' where
  ok := h'.ok
  limit := h'.limit.trans h.limit
  scrolls := by
    obtain ⟨rows, e, hs⟩ := h.scrolls
    obtain ⟨rows', e', hs'⟩ := h'.scrolls
    rw [h.limit] at hs'
    exact ⟨_, _, hs.trans hs'⟩

/-- The rule for an operation on the sheet alone, within the geometry and the frame. -/
theorem Effect.of_sheet (h : d.Ok) {v : Sheet} (hfits : v.Fits)
    (hlimit : v.scrollbackLimit = d.sheet.scrollbackLimit) {rows : List Line} {e : Nat}
    (hs : d.sheet.Scrolls d.mainLimit v rows e) : Effect false d { d with sheet := v } := by
  have hmain : mainLimit { d with sheet := v } = d.mainLimit := by
    unfold mainLimit
    rw [hlimit]
  have hle := hs.evicted_le
  have hlen : v.history.length = d.sheet.history.length + rows.length - e := by
    simp [hs.history]
  refine ⟨⟨hfits, ?_, ?_, h.main, ?_, h.title, h.titleStack⟩, hmain, rows, e, hs⟩
  · show v.pendingStart ≤ v.history.length
    have := hs.pending
    have := h.pending
    omega
  · rw [hmain]
    show v.history.length ≤ _
    rcases eq_or_ne rows [] with rfl | hne
    · have := h.history
      simp only [List.length_nil] at hlen
      omega
    · exact hs.bound hne
  · intro halt
    refine ⟨hlimit.trans (h.alt halt).1, (h.alt halt).2⟩

/-- The lines change in place. -/
theorem Effect.of_lines (h : d.Ok) {v : Sheet} (hfits : v.Fits)
    (hlimit : v.scrollbackLimit = d.sheet.scrollbackLimit)
    (hpending : v.pendingStart = d.sheet.pendingStart) (hhist : v.history = d.sheet.history)
    (hcaptured : v.captured = d.sheet.captured) :
    Effect false d { d with sheet := v } := by
  have hs : d.sheet.Scrolls d.mainLimit v [] 0 := by
    refine ⟨?_, ?_, ?_, Nat.zero_le _, fun hne => absurd rfl hne⟩
    · simpa using hhist
    · simpa using hcaptured
    · simpa using hpending
  exact .of_sheet h hfits hlimit hs

theorem Effect.withFrame (h : d.Ok) {f : Frame → Frame}
    (hf : d.sheet.toFrame.Moves (f d.sheet.toFrame)) : Effect false d (d.withFrame f) := by
  have hcols : (f d.sheet.toFrame).cols = d.sheet.cols := congrArg TerminalSize.cols hf.size
  have hrows : (f d.sheet.toFrame).rows = d.sheet.rows := congrArg TerminalSize.rows hf.size
  refine .of_lines h ⟨hf.inside h.fits.toInside, ?_, ?_⟩ hf.limit hf.pending rfl hf.captured
  · exact h.fits.rows.trans hrows.symm
  · exact fun line hline => (h.fits.cols line hline).trans hcols.symm

theorem Effect.modifyLine (h : d.Ok) (y : Nat) {f : Line → Line}
    (hf : ∀ line, line.len = d.sheet.cols → (f line).len = d.sheet.cols) :
    Effect false d (d.withSheet (·.modifyLine y f)) :=
  .of_lines h (h.fits.modifyLine y hf) rfl rfl rfl rfl

/-- The state changes apart from the alternate screen and the titles. -/
theorem Effect.of_state (h : d.Ok) {s : ScreenState SavedSheet}
    (halt : s.inAltScreen = d.state.inAltScreen) (hsaved : s.savedGrid = d.state.savedGrid)
    (hregion : s.savedScrollRegion = d.state.savedScrollRegion)
    (htitle : byteLen s.title ≤ maxTitle)
    (hstack : ∀ title ∈ s.titleStack, byteLen title ≤ maxTitle) :
    Effect false d { d with state := s } := by
  have hmain : mainLimit { d with state := s } = d.mainLimit := by
    unfold mainLimit
    rw [hsaved]
  refine ⟨⟨h.fits, h.pending, ?_, ?_, ?_, htitle, hstack⟩, hmain, [], 0, .refl _ _⟩
  · rw [hmain]
    exact h.history
  · intro hs
    exact hsaved.trans (h.main (halt ▸ hs))
  · intro hs
    obtain ⟨hlimit, saved, hsome, hok⟩ := h.alt (halt ▸ hs)
    exact ⟨hlimit, saved, hsaved.trans hsome, hregion ▸ hok⟩

end Display

end QuorumDispatch.Screen
