import QuorumDispatch.Screen.Changes
import Mathlib.Data.List.InsertIdx

/-!
A property of lines that every line of the display has: those that are shown, those in
the history and those that are set aside with the main screen. It is kept by every
change when the edits of a line, blank lines and lines at a new width keep it.
-/

namespace QuorumDispatch.Screen

open Lib

structure Display.AllLines (P : Line → Prop) (d : Display) : Prop where
  lines : ∀ line ∈ d.sheet.lines, P line
  history : ∀ line ∈ d.sheet.history, P line
  saved : ∀ saved, d.state.savedGrid = some saved → ∀ line ∈ saved.lines, P line

theorem Display.AllLines.mono {P Q : Line → Prop} {d : Display} (h : d.AllLines P)
    (hPQ : ∀ line, P line → Q line) : d.AllLines Q where
  lines line hline := hPQ line (h.lines line hline)
  history line hline := hPQ line (h.history line hline)
  saved saved hs line hline := hPQ line (h.saved saved hs line hline)

structure LineRule (R : Rules) (P : Line → Prop) (d : Display) : Prop where
  blank : ∀ fill : Cell, fill.Fill d.sheet.styleTable → P (d.sheet.blankLine fill)
  new : P (.new d.sheet.cols)
  edit : ∀ f, LineEdit R d.sheet.styleTable d.sheet.cols f →
    ∀ line, line.len = d.sheet.cols → P line → P (f line)
  pad : ∀ line x blank, R.pad line x → blank.Fill d.sheet.styleTable → line.len = d.sheet.cols →
    x + 1 = d.sheet.cols → P line → P (line.set x blank)
  fit : ∀ line, P line → P (Sheet.fitLine d.sheet.cols line)

namespace Display

variable {R : Rules} {P : Line → Prop} {d d' : Display}

theorem forall_mem_modify {α : Type} {Q : α → Prop} {xs : List α} {f : α → α} {y : Nat}
    (h : ∀ a ∈ xs, Q a) (hf : ∀ a ∈ xs, Q a → Q (f a)) : ∀ a ∈ xs.modify y f, Q a := by
  intro a ha
  obtain ⟨i, hi, rfl⟩ := List.getElem_of_mem ha
  rw [List.getElem_modify]
  rw [List.length_modify] at hi
  have hmem := List.getElem_mem hi
  split_ifs
  · exact hf _ hmem (h _ hmem)
  · exact h _ hmem

theorem forall_mem_shift {α : Type} {Q : α → Prop} {xs : List α} {out into : Nat} {a : α}
    (h : ∀ x ∈ xs, Q x) (ha : Q a) : ∀ x ∈ (xs.eraseIdx out).insertIdx into a, Q x := by
  intro x hx
  obtain rfl | hmem := List.eq_or_mem_of_mem_insertIdx hx
  · exact ha
  · exact h x (List.mem_of_mem_eraseIdx hmem)

def SheetAll (P : Line → Prop) (v : Sheet) : Prop :=
  (∀ line ∈ v.lines, P line) ∧ ∀ line ∈ v.history, P line

theorem SheetAll.capture {v : Sheet} (h : SheetAll P v) : SheetAll P v.capture := by
  obtain ⟨hlines, hhist⟩ := h
  have hall : ∀ line ∈ v.history ++ v.lines.take 1, P line := by
    intro line hline
    obtain hmem | hmem := List.mem_append.mp hline
    · exact hhist line hmem
    · exact hlines line (List.mem_of_mem_take hmem)
  refine ⟨fun line hline => ?_, fun line hline => ?_⟩
  · rw [Sheet.capture_lines] at hline
    exact hlines line (List.mem_of_mem_tail hline)
  · unfold Sheet.capture at hline
    split_ifs at hline
    · exact hall line (List.mem_of_mem_tail hline)
    · exact hall line hline

/-- Every row that is erased is as good as new. -/
theorem eraseAll_eq_new {line : Line} {cols : Nat} (h : line.len = cols) :
    line.eraseAll {} = .new cols := by
  simp [Line.eraseAll, Line.new, ← h, Line.len, List.map_const']

theorem getElem?_eraseRows (v : Sheet) (startY stopY : Nat) (blank : Cell) (i : Nat) :
    (v.eraseRows startY stopY blank).lines[i]? =
      if startY ≤ i ∧ i < stopY then v.lines[i]?.map (·.eraseAll blank) else v.lines[i]? := by
  unfold Sheet.eraseRows
  have hfold (ys : List Nat) (v : Sheet) :
      (ys.foldl (fun v y => v.modifyLine y (·.eraseAll blank)) v).lines[i]? =
        if i ∈ ys then v.lines[i]?.map (·.eraseAll blank) else v.lines[i]? := by
    have htwice (l : Line) : (l.eraseAll blank).eraseAll blank = l.eraseAll blank := by
      simp [Line.eraseAll]
    induction ys generalizing v with
    | nil => simp
    | cons y ys ih =>
        rw [List.foldl_cons, ih, Sheet.modifyLine, List.getElem?_modify]
        by_cases hy : y = i
        · subst hy
          cases v.lines[y]? <;> simp [htwice]
        · have hne : i ≠ y := Ne.symm hy
          simp [hy, hne]
  rw [hfold]
  simp only [List.mem_range'_1]
  congr 1
  exact propext (by omega)

theorem fullReset_lines (h : d.Ok) :
    d.fullReset.sheet.lines = List.replicate d.sheet.rows (.new d.sheet.cols) := by
  have hrows := h.fits.rows
  apply List.ext_getElem?
  intro i
  have herase := getElem?_eraseRows (d.sheet.withFrame (resetFrame · d.mainLimit)) 0 d.sheet.rows {} i
  refine herase.trans ?_
  rw [List.getElem?_replicate]
  change (if 0 ≤ i ∧ i < d.sheet.rows then d.sheet.lines[i]?.map _ else d.sheet.lines[i]?) = _
  simp only [Nat.zero_le, true_and]
  split_ifs with hi
  · have hlt : i < d.sheet.lines.length := hrows ▸ hi
    rw [List.getElem?_eq_getElem hlt, Option.map_some, eraseAll_eq_new (h.fits.len hlt)]
  · exact List.getElem?_eq_none (by omega)

theorem AllLines.restoreSaved {v : Sheet} {saved : SavedSheet} (hnew : P (.new v.cols))
    (hfit : ∀ line, P line → P (Sheet.fitLine v.cols line)) (h : ∀ line ∈ saved.lines, P line) :
    ∀ line ∈ (Display.restoreSaved v saved).lines, P line := by
  intro line hline
  obtain ⟨line, hmem, rfl⟩ := List.mem_map.mp hline
  apply hfit
  obtain hold | hblank := List.mem_append.mp hmem
  · exact h line (List.mem_of_mem_take hold)
  · rw [List.eq_of_mem_replicate hblank]
    exact hnew

/-- The lines of the main screen when it is set aside, and what is shown instead. -/
theorem enterAltScreen_main (hmain : d.state.inAltScreen = false) (save : Bool) :
    (d.enterAltScreen save).sheet.lines = List.replicate d.sheet.rows (.new d.sheet.cols) ∧
      (d.enterAltScreen save).sheet.history = d.sheet.history ∧
      (d.enterAltScreen save).state.savedGrid = some
        { lines := d.sheet.lines, scrollbackLimit := d.sheet.scrollbackLimit
          saveCols := d.sheet.cols } := by
  unfold enterAltScreen
  rw [if_neg (by simp [hmain])]
  cases save <;> exact ⟨rfl, rfl, rfl⟩

/-- The lines when the main screen returns. -/
theorem exitAltScreen_alt (halt : d.state.inAltScreen = true) (restore : Bool) {saved : SavedSheet}
    (hsaved : d.state.savedGrid = some saved) :
    (d.exitAltScreen restore).sheet.lines = (restoreSaved d.sheet saved).lines ∧
      (d.exitAltScreen restore).sheet.history = d.sheet.history ∧
      (d.exitAltScreen restore).state.savedGrid = none := by
  have hresume : d.resumeMain.sheet.lines = (restoreSaved d.sheet saved).lines ∧
      d.resumeMain.sheet.history = d.sheet.history := by
    unfold resumeMain
    rw [hsaved]
    cases d.state.savedModes <;> exact ⟨rfl, rfl⟩
  unfold exitAltScreen
  rw [if_neg (by simp [halt])]
  cases restore with
  | false => exact ⟨hresume.1, hresume.2, rfl⟩
  | true =>
      have hcursor : ∀ (d : Display) (invalid : Bool),
          (d.restoreCursor invalid).sheet.lines = d.sheet.lines ∧
            (d.restoreCursor invalid).sheet.history = d.sheet.history ∧
            (d.restoreCursor invalid).state.savedGrid = d.state.savedGrid := by
        intro d invalid
        unfold restoreCursor
        dsimp only
        split <;> exact ⟨rfl, rfl, rfl⟩
      obtain ⟨hlines, hhist, hgrid⟩ := hcursor d.resumeMain d.resumeInvalid
      exact ⟨hlines.trans hresume.1, hhist.trans hresume.2, hgrid⟩

theorem AllLines.exitAltScreen (h : d.Ok) (halt : d.state.inAltScreen = true) (restore : Bool)
    (hnew : P (.new d.sheet.cols)) (hfit : ∀ line, P line → P (Sheet.fitLine d.sheet.cols line))
    (hhist : ∀ line ∈ d.sheet.history, P line)
    (hsaved : ∀ saved, d.state.savedGrid = some saved → ∀ line ∈ saved.lines, P line) :
    AllLines P (d.exitAltScreen restore) := by
  obtain ⟨-, saved, hsome, -⟩ := h.alt halt
  obtain ⟨hlines', hhist', hsaved'⟩ := exitAltScreen_alt halt restore hsome
  refine ⟨?_, by rwa [hhist'], by simp [hsaved']⟩
  rw [hlines']
  exact AllLines.restoreSaved hnew hfit (hsaved saved hsome)

theorem AllLines.fullReset (h : d.Ok) (hnew : P (.new d.sheet.cols)) : AllLines P d.fullReset := by
  refine ⟨?_, ?_, ?_⟩
  · rw [fullReset_lines h]
    intro line hline
    rw [List.eq_of_mem_replicate hline]
    exact hnew
  · simp [Display.fullReset, Sheet.clearScrollback]
  · have hnone : d.fullReset.state.savedGrid = none := by
      unfold Display.fullReset ScreenState.pushPassthrough
      dsimp only
      split_ifs <;> rfl
    simp [hnone]

/-- A change keeps a property of all lines. -/
theorem AllLines.change (h : d.Ok) (c : Change R d d') (hrule : LineRule R P d)
    (hall : AllLines P d) : AllLines P d' := by
  obtain ⟨hlines, hhist, hsaved⟩ := hall
  cases c with
  | frame f => exact ⟨hlines, hhist, hsaved⟩
  | state f _ hgrid => exact ⟨hlines, hhist, fun saved hs => hsaved saved (hgrid ▸ hs)⟩
  | save => exact ⟨hlines, hhist, hsaved⟩
  | intern style => exact ⟨hlines, hhist, hsaved⟩
  | compact => exact ⟨hlines, hhist, hsaved⟩
  | edit y hf =>
      refine ⟨forall_mem_modify hlines fun line hline => ?_, hhist, hsaved⟩
      exact hrule.edit _ hf line (h.fits.cols line hline)
  | pad blank hblank hmargin hpad =>
      refine ⟨fun line hline => ?_, hhist, hsaved⟩
      have hx := h.fits.cursorX
      obtain ⟨i, hi, rfl⟩ := List.getElem_of_mem hline
      change i < (d.sheet.lines.modify _ _).length at hi
      change P ((d.sheet.lines.modify _ _)[i])
      rw [List.length_modify] at hi
      have hmem := List.getElem_mem hi
      rw [List.getElem_modify]
      split_ifs with hy
      · subst hy
        rw [List.getD_eq_getElem?_getD, List.getElem?_eq_getElem hi, Option.getD_some] at hpad
        exact hrule.pad _ _ blank hpad hblank (h.fits.cols _ hmem) (by omega) (hlines _ hmem)
      · exact hlines _ hmem
  | shift out into fill hfill =>
      exact ⟨forall_mem_shift hlines (hrule.blank fill hfill), hhist, hsaved⟩
  | capture fill hfill =>
      obtain ⟨hlines', hhist'⟩ := SheetAll.capture ⟨hlines, hhist⟩
      refine ⟨fun line hline => ?_, hhist', hsaved⟩
      obtain rfl | hmem := List.eq_or_mem_of_mem_insertIdx hline
      · exact hrule.blank fill hfill
      · exact hlines' line hmem
  | clear => exact ⟨hlines, by simp [withSheet, Sheet.clearScrollback], hsaved⟩
  | enter save hmain =>
      obtain ⟨hlines', hhist', hsaved'⟩ := enterAltScreen_main hmain save
      refine ⟨?_, by rwa [hhist'], ?_⟩
      · rw [hlines']
        intro line hline
        rw [List.eq_of_mem_replicate hline]
        exact hrule.new
      · rw [hsaved']
        rintro saved ⟨⟩
        exact hlines
  | exit restore _ halt =>
      exact AllLines.exitAltScreen h halt restore hrule.new hrule.fit hhist hsaved
  | reset => exact AllLines.fullReset h hrule.new

/-- So do many changes, as long as the rule holds along the way. -/
theorem AllLines.changes (c : Changes R d d') (hrule : ∀ {d : Display}, d.Ok → LineRule R P d)
    (hall : AllLines P d) : AllLines P d' :=
  c.invariant (fun h c hd => hd.change h c (hrule h)) hall

/-! ### Resizing -/

theorem SheetAll.growRows {v : Sheet} (h : SheetAll P v) (rows : Nat) :
    SheetAll P (v.growRows rows) := by
  obtain ⟨hlines, hhist⟩ := h
  refine ⟨fun line hline => ?_, fun line hline => hhist line (List.mem_of_mem_take hline)⟩
  obtain hmem | hmem := List.mem_append.mp hline
  · exact hhist line (List.mem_of_mem_drop hmem)
  · exact hlines line hmem

theorem SheetAll.chopBlankBottomRows {v : Sheet} (h : SheetAll P v) (max : Nat) :
    SheetAll P (v.chopBlankBottomRows max).2 := by
  induction max generalizing v with
  | zero => exact h
  | succ max ih =>
      unfold Sheet.chopBlankBottomRows
      split_ifs
      · exact ih (v := { v with lines := v.lines.dropLast })
          ⟨fun line hline => h.1 line (List.mem_of_mem_dropLast hline), h.2⟩
      · exact h

theorem SheetAll.iterate_capture {v : Sheet} (h : SheetAll P v) (n : Nat) :
    SheetAll P (Sheet.capture^[n] v) := by
  induction n generalizing v with
  | zero => exact h
  | succ n ih => exact ih h.capture

theorem SheetAll.shrinkRows {v : Sheet} (h : SheetAll P v) (rows : Nat) :
    SheetAll P (v.shrinkRows rows) := by
  unfold Sheet.shrinkRows
  exact (h.chopBlankBottomRows _).iterate_capture _

theorem SheetAll.resizeGrid {v : Sheet} (h : SheetAll P v) (inAlt : Bool) (cols rows : UInt16)
    (keepWrap : Bool) (hnew : P (.new (sanitizeDimensions cols rows).cols))
    (hfit : ∀ line, P line → P (Sheet.fitLine (sanitizeDimensions cols rows).cols line)) :
    SheetAll P (v.resizeGrid inAlt cols rows keepWrap) := by
  have hfitted : ∀ v : Sheet, SheetAll P v →
      SheetAll P (v.resize (sanitizeDimensions cols rows) keepWrap) := by
    intro v hv
    refine ⟨fun line hline => ?_, hv.2⟩
    obtain ⟨line, hmem, rfl⟩ := List.mem_map.mp hline
    apply hfit
    obtain hold | hblank := List.mem_append.mp hmem
    · exact hv.1 line (List.mem_of_mem_take hold)
    · rw [List.eq_of_mem_replicate hblank]
      exact hnew
  unfold Sheet.resizeGrid
  apply hfitted
  split_ifs
  · exact (h.growRows _).shrinkRows _
  · exact h.shrinkRows _
  · exact h.growRows _
  · exact h

theorem AllLines.resize (hall : AllLines P d) (cols rows : UInt16) (keepWrap : Bool)
    (hnew : P (.new (sanitizeDimensions cols rows).cols))
    (hfit : ∀ line, P line → P (Sheet.fitLine (sanitizeDimensions cols rows).cols line)) :
    AllLines P (d.resize cols rows keepWrap) := by
  have hsheet : SheetAll P d.sheet := ⟨hall.lines, hall.history⟩
  obtain ⟨hlines, hhist⟩ :=
    hsheet.resizeGrid d.state.inAltScreen cols rows keepWrap hnew hfit
  exact ⟨hlines, hhist, hall.saved⟩

end Display

end QuorumDispatch.Screen
