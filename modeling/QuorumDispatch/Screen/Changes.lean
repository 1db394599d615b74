import QuorumDispatch.Screen.Effects

/-!
What a callback is made of. Every callback is a sequence of changes of the display,
each of one kind: the frame moves, the state beside the sheet changes, a style is
interned, a line is edited, lines shift, a screen is set aside or returns. What holds
of every change holds of every run, so that an invariant needs a look at each kind
and not at each callback.

Some kinds only come up in certain callbacks. The rules say which kinds there may
be, and `Rules.Admits` what this asks of a callback.
-/

namespace QuorumDispatch.Screen

open Lib

/-- An id that the table has given out: that of the default, or one of the index. -/
def StyleTable.Gives (t : StyleTable) (id : Nat) : Prop := id = 0 ∨ ∃ s, (s, id) ∈ t.index

structure Cell.Fill (table : StyleTable) (cell : Cell) : Prop where
  id : table.Gives cell.styleId
  width : cell.width = 1

/-- The lines of the main screen while the alternate one is up, its history included. -/
def Display.mainLines (d : Display) : List Line :=
  d.sheet.history ++ (d.state.savedGrid.map SavedSheet.lines).getD []

/-- Which changes there may be: of characters that are at most two columns wide only,
of a padding on a given line and column, of an exit with a given table and given lines that
stay, and of the kinds that a few callbacks have to themselves. -/
structure Rules where
  narrow : Prop
  pad : Line → Nat → Prop
  saves : Prop
  clears : Prop
  leaves : StyleTable → List Line → Prop
  resets : Prop

inductive LineEdit (R : Rules) (table : StyleTable) (cols : Nat) : (Line → Line) → Prop where
  | put (x : Nat) (cell : Cell) (hx : x < cols) (hid : table.Gives cell.styleId)
      (hwidth : R.narrow → cell.width = 1 ∨ cell.width = 2 ∧ x + 1 < cols) :
      LineEdit R table cols (·.put cols x cell)
  | erase (start stop : Nat) (blank : Cell) (hlt : start < stop) (hle : stop ≤ cols)
      (hblank : blank.Fill table) : LineEdit R table cols (·.erase cols start stop blank)
  | eraseAll (blank : Cell) (hblank : blank.Fill table) : LineEdit R table cols (·.eraseAll blank)
  | mark (x : Nat) (c : Char) (hx : x < cols) : LineEdit R table cols (·.pushCombining x c)
  | delete (x n : Nat) (blank : Cell) (hx : x < cols) (hblank : blank.Fill table) :
      LineEdit R table cols (Display.deleteCells cols x n blank)
  | insert (x n : Nat) (blank : Cell) (hx : x < cols) (hblank : blank.Fill table) :
      LineEdit R table cols (Display.insertCells cols x n blank)

inductive Change (R : Rules) (d : Display) : Display → Prop where
  | frame (f : Frame → Frame) (hsize : (f d.sheet.toFrame).size = d.sheet.size)
      (htable : (f d.sheet.toFrame).styleTable = d.sheet.styleTable) : Change R d (d.withFrame f)
  | state (f : ScreenState SavedSheet → ScreenState SavedSheet)
      (halt : (f d.state).inAltScreen = d.state.inAltScreen)
      (hsaved : (f d.state).savedGrid = d.state.savedGrid)
      (hcursor : (f d.state).savedCursorState = d.state.savedCursorState)
      (hmodes : (f d.state).savedModes = d.state.savedModes)
      (hregion : (f d.state).savedScrollRegion = d.state.savedScrollRegion) :
      Change R d (d.withState f)
  | save (h : R.saves) : Change R d (d.saveCursor none false)
  | intern (style : Style) : Change R d (d.intern style).2
  | compact (hfull : d.sheet.styleTable.isFull = true) :
      Change R d (d.withSheet (Display.compactStyles · d.state.savedGrid))
  | edit (y : Nat) {f : Line → Line} (hf : LineEdit R d.sheet.styleTable d.sheet.cols f) :
      Change R d (d.withSheet (·.modifyLine y f))
  | pad (blank : Cell) (hblank : blank.Fill d.sheet.styleTable)
      (hmargin : d.sheet.cols ≤ d.sheet.cursorX + 1)
      (hpad : R.pad (d.sheet.lines.getD d.sheet.cursorY { cells := [] }) d.sheet.cursorX) :
      Change R d (d.withSheet fun v => v.modifyLine v.cursorY (·.set v.cursorX blank))
  | shift (out into : Nat) (fill : Cell) (hfill : fill.Fill d.sheet.styleTable) :
      Change R d (d.withSheet fun v => (v.removeLine out).insertLine into (v.blankLine fill))
  | capture (fill : Cell) (hfill : fill.Fill d.sheet.styleTable)
      (hmain : d.state.inAltScreen = false) :
      Change R d (d.withSheet fun v => v.capture.insertLine v.scrollBottom (v.blankLine fill))
  | clear (h : R.clears) : Change R d (d.withSheet (·.clearScrollback))
  | enter (save : Bool) (hmain : d.state.inAltScreen = false) : Change R d (d.enterAltScreen save)
  | exit (restore : Bool) (h : R.leaves d.sheet.styleTable d.mainLines) (halt : d.state.inAltScreen = true) :
      Change R d (d.exitAltScreen restore)
  | reset (h : R.resets) : Change R d d.fullReset

inductive Changes (R : Rules) (d : Display) : Display → Prop where
  | refl (h : d.Ok) : Changes R d d
  | snoc {d' d'' : Display} (h : Changes R d d') (c : Change R d' d'') (ok : d''.Ok) :
      Changes R d d''

namespace Changes

variable {R : Rules} {d d' d'' : Display}

theorem ok (h : Changes R d d') : d'.Ok := by
  cases h with
  | refl h => exact h
  | snoc _ _ ok => exact ok

theorem one (h : d.Ok) (c : Change R d d') (ok : d'.Ok) : Changes R d d' := (refl h).snoc c ok

theorem trans (h : Changes R d d') (h' : Changes R d' d'') : Changes R d d'' := by
  induction h' with
  | refl => exact h
  | snoc _ c ok ih => exact ih.snoc c ok

/-- The invariant rule. -/
theorem invariant {I : Display → Prop}
    (hstep : ∀ {d d' : Display}, d.Ok → Change R d d' → I d → I d') (h : Changes R d d')
    (hd : I d) : I d' := by
  induction h with
  | refl => exact hd
  | snoc h c _ ih => exact hstep h.ok c ih

/-- The rule for a loop. -/
theorem iterate {f : Display → Display} (n : Nat) (h : d.Ok)
    (hf : ∀ k < n, (f^[k] d).Ok → Changes R (f^[k] d) (f^[k + 1] d)) : Changes R d (f^[n] d) := by
  induction n with
  | zero => exact .refl h
  | succ n ih =>
      have hrest := ih fun k hk => hf k (Nat.lt_succ_of_lt hk)
      exact hrest.trans (hf n (Nat.lt_succ_self n) hrest.ok)

end Changes

/-! ### What is asked of a callback -/

def Display.pads (d : Display) (width : Nat) : Bool :=
  width == 2 && !(d.sheet.wrapPending && d.sheet.modes.autowrapMode) &&
    decide (d.sheet.cursorX ≥ d.sheet.cols - 1) && d.sheet.modes.autowrapMode &&
    decide (2 ≤ d.sheet.cols)

namespace Rules

variable (R : Rules) (charWidth : Char → Nat)

structure AdmitsPrint (d : Display) (c : Char) : Prop where
  narrow : R.narrow → charWidth (d.sheet.modes.mapCharset c) ≤ 2
  pad : d.pads (charWidth (d.sheet.modes.mapCharset c)) = true →
    R.pad (d.sheet.lines.getD d.sheet.cursorY { cells := [] }) d.sheet.cursorX

def altMode (p : List Nat) : Prop := p.head? = some 1049 ∨ p.head? = some 1047 ∨ p.head? = some 47

instance : DecidablePred altMode := fun _ => inferInstanceAs (Decidable (_ ∨ _ ∨ _))

def Admits (d : Display) : Callback → Prop
  | .print c => R.AdmitsPrint charWidth d c
  | .csiDispatch ps intermediates action =>
      (action = 'b' → ∀ k < param ps 0 1, R.AdmitsPrint charWidth
        ((Display.print charWidth · d.state.lastPrintedChar)^[k] d) d.state.lastPrintedChar) ∧
      (action = 'J' → param ps 0 0 = 3 → R.clears) ∧
      (action = 's' → intermediates = [] → R.saves) ∧
      (action = 'h' → intermediates = ascii "?" → (∃ p ∈ ps, p.head? = some 1048) → R.saves) ∧
      (action = 'l' → intermediates = ascii "?" → (∃ p ∈ ps, altMode p) →
        d.state.inAltScreen = true → R.leaves d.sheet.styleTable d.mainLines)
  | .escDispatch intermediates byte =>
      (intermediates = [] → byte = 0x37 → R.saves) ∧
      (intermediates = [] → byte = 0x63 → R.resets)
  | _ => True

end Rules

/-! ### The operations -/

namespace StyleTable

variable {t t' : StyleTable} {s : Style} {id : Nat}

theorem gives_intern (h : t.intern s = some (id, t')) : t'.Gives id := by
  unfold intern at h
  split at h
  · cases h
    exact .inl rfl
  · split at h
    next hid =>
      cases h
      obtain ⟨l₁, l₂, hindex, -⟩ := List.lookup_eq_some_iff.mp hid
      exact .inr ⟨s, by simp [hindex]⟩
    next =>
      split at h
      · split at h
        · cases h
          exact .inr ⟨s, List.mem_cons_self⟩
        · cases h
      · split at h
        · cases h
          exact .inl rfl
        · cases h
          exact .inr ⟨s, List.mem_cons_self⟩

end StyleTable

namespace Display

open Terminal (oscBytes)

variable {R : Rules} {d d' : Display}

theorem changes_withFrame (h : d.Ok) {f : Frame → Frame}
    (hf : d.sheet.toFrame.Moves (f d.sheet.toFrame))
    (htable : (f d.sheet.toFrame).styleTable = d.sheet.styleTable) :
    Changes R d (d.withFrame f) :=
  .one h (.frame f hf.size htable) (Effect.withFrame h hf).ok

theorem gives_intern (d : Display) (style : Style) :
    (d.intern style).2.sheet.styleTable.Gives (d.intern style).1 := by
  unfold intern
  cases htable : d.sheet.styleTable.intern style with
  | none => exact .inl rfl
  | some r => exact StyleTable.gives_intern htable

theorem gives_internWithGc (d : Display) (style : Style) :
    (d.internWithGc style).2.sheet.styleTable.Gives (d.internWithGc style).1 := by
  unfold internWithGc
  dsimp only
  split_ifs
  · exact gives_intern _ style
  · exact gives_intern _ style

theorem changes_internWithGc (h : d.Ok) (style : Style) :
    Changes R d (d.internWithGc style).2 := by
  have h₁ := effect_intern h style
  have hintern : Changes R d (d.intern style).2 := .one h (.intern style) h₁.ok
  unfold internWithGc
  dsimp only
  split_ifs with hretry
  · have h₂ := effect_compactStyles h₁.ok (d.intern style).2.state.savedGrid
    have h₃ := effect_intern h₂.ok style
    exact (hintern.snoc (.compact hretry.2.2) h₂.ok).snoc (.intern style) h₃.ok
  · exact hintern

theorem fill_blankCell (d : Display) : d.blankCell.1.Fill d.blankCell.2.sheet.styleTable :=
  ⟨gives_internWithGc d _, rfl⟩

-- below, only the results above are used of the interning
attribute [local irreducible] internWithGc

theorem changes_blankCell (h : d.Ok) : Changes R d d.blankCell.2 := changes_internWithGc h _

theorem changes_scrollUp (h : d.Ok) : Changes R d d.scrollUp := by
  have hblank : Changes R d d.blankCell.2 := changes_blankCell h
  refine hblank.trans ?_
  have hok : d.scrollUp.Ok := (effect_scrollUp h).ok
  have hfill := fill_blankCell d
  have h := hblank.ok
  unfold scrollUp at hok ⊢
  dsimp only at hok ⊢
  generalize d.blankCell.1 = fill at *
  generalize d.blankCell.2 = d at *
  by_cases hcap : d.state.inAltScreen = false ∧ d.sheet.scrollTop = 0 ∧ 0 < d.sheet.scrollbackLimit
  · have heq : d.withSheet (·.scrollUp d.state.inAltScreen fill) =
        d.withSheet fun v => v.capture.insertLine v.scrollBottom (v.blankLine fill) := by
      simp only [withSheet, Sheet.scrollUp, if_pos hcap]
    rw [heq] at hok ⊢
    exact .one h (.capture fill hfill hcap.1) hok
  · have heq : d.withSheet (·.scrollUp d.state.inAltScreen fill) = d.withSheet fun v =>
        (v.removeLine d.sheet.scrollTop).insertLine d.sheet.scrollBottom (v.blankLine fill) := by
      simp only [withSheet, Sheet.scrollUp, if_neg hcap]
    rw [heq] at hok ⊢
    exact .one h (.shift _ _ fill hfill) hok

theorem changes_scrollDown (h : d.Ok) : Changes R d d.scrollDown :=
  (changes_blankCell h).snoc (.shift _ _ _ (fill_blankCell d)) (effect_scrollDown h).ok

theorem changes_lineFeed (h : d.Ok) : Changes R d d.lineFeed := by
  have hok := (effect_lineFeed h).ok
  unfold lineFeed at hok ⊢
  split_ifs at hok ⊢
  · exact changes_scrollUp h
  · exact .one h (.frame _ rfl rfl) hok
  · exact .refl h

theorem changes_restoreCursor (h : d.Ok) (invalid : Bool) :
    Changes R d (d.restoreCursor invalid) := by
  have hdrop : Changes R d (d.withFrame (dropWrap invalid)) :=
    changes_withFrame h (moves_dropWrap _ invalid) rfl
  have hok := (effect_restoreCursor h invalid).ok
  unfold restoreCursor at hok ⊢
  dsimp only at hok ⊢
  split
  · exact hdrop
  next saved hsaved =>
    rw [hsaved] at hok
    have hplace : (d.withFrame (dropWrap invalid)).sheet.toFrame.Moves
        (saved.place (dropWrap invalid { (d.withFrame (dropWrap invalid)).sheet.toFrame with
          wrapPending := saved.wrapPending })) :=
      (Frame.moves_wrap _ _).trans ((moves_dropWrap _ _).trans (moves_place _ _))
    have h₂ := Effect.withFrame hdrop.ok (f := fun f =>
      saved.place (dropWrap invalid { f with wrapPending := saved.wrapPending })) hplace
    exact (hdrop.snoc (.frame _ rfl rfl) h₂.ok).snoc (.state _ rfl rfl rfl rfl rfl) hok

theorem changes_enterAltScreen (h : d.Ok) (save : Bool) : Changes R d (d.enterAltScreen save) := by
  by_cases halt : d.state.inAltScreen = true
  · have heq : d.enterAltScreen save = d := by simp [enterAltScreen, halt]
    rw [heq]
    exact .refl h
  · exact .one h (.enter save (by simpa using halt)) (effect_enterAltScreen h save).ok

theorem changes_exitAltScreen (h : d.Ok)
    (hleaves : d.state.inAltScreen = true → R.leaves d.sheet.styleTable d.mainLines) (restore : Bool) :
    Changes R d (d.exitAltScreen restore) := by
  by_cases halt : d.state.inAltScreen = true
  · exact .one h (.exit restore (hleaves halt) halt) (effect_exitAltScreen h restore).ok
  · have heq : d.exitAltScreen restore = d := by simp [exitAltScreen, halt]
    rw [heq]
    exact .refl h

theorem changes_withModes (h : d.Ok) (f : TerminalModes → TerminalModes) :
    Changes R d (d.withModes f) := .one h (.frame _ rfl rfl) (effect_withModes h f).ok

theorem changes_edit (h : d.Ok) (y : Nat) {f : Line → Line}
    (hf : LineEdit R d.sheet.styleTable d.sheet.cols f)
    (hlen : ∀ line, line.len = d.sheet.cols → (f line).len = d.sheet.cols) :
    Changes R d (d.withSheet (·.modifyLine y f)) :=
  .one h (.edit y hf) (Effect.modifyLine h y hlen).ok

/-- What waits to be sent is no part of what is shown. -/
theorem changes_pushPassthrough (h : d.Ok) (data : Bytes) :
    Changes R d (d.withState (·.pushPassthrough data)) := by
  refine .one h (.state _ ?_ ?_ ?_ ?_ ?_) (effect_pushPassthrough h data).ok <;>
    (unfold ScreenState.pushPassthrough; split_ifs <;> rfl)

theorem changes_pushResponse (h : d.Ok) (data : Bytes) :
    Changes R d (d.withState (·.pushResponse data)) := by
  refine .one h (.state _ ?_ ?_ ?_ ?_ ?_) (effect_pushResponse h data).ok <;>
    (unfold ScreenState.pushResponse; split_ifs <;> rfl)

/-! ### Printing -/

theorem markColumn_lt (h : d.Ok) : markColumn d.sheet < d.sheet.cols := by
  have hx := h.fits.cursorX
  unfold markColumn
  dsimp only
  split_ifs <;> omega

theorem changes_handleCombiningMark (h : d.Ok) (c : Char) :
    Changes R d (d.handleCombiningMark c) := by
  unfold handleCombiningMark
  dsimp only
  split_ifs
  · exact .refl h
  · exact changes_edit h _ (.mark _ c (markColumn_lt h)) fun line hline => hline
  · exact .refl h

theorem changes_performDeferredWrap (h : d.Ok) : Changes R d d.performDeferredWrap := by
  have hhome : Changes R d (d.withFrame fun f => { f with wrapPending := false, cursorX := 0 }) :=
    changes_withFrame h (Frame.moves_return _) rfl
  exact hhome.trans (changes_lineFeed hhome.ok)

/-- Interning a blank shows nothing. -/
theorem blankCell_lines (d : Display) : d.blankCell.2.sheet.lines = d.sheet.lines ∧
    d.blankCell.2.sheet.cursorX = d.sheet.cursorX ∧
    d.blankCell.2.sheet.cursorY = d.sheet.cursorY ∧ d.blankCell.2.sheet.cols = d.sheet.cols := by
  obtain ⟨table, htable⟩ := internWithGc_eq d { bg := d.state.currentStyle.bg }
  have hblank : d.blankCell.2 = d.withFrame fun f => { f with styleTable := table } := htable
  rw [hblank]
  exact ⟨rfl, rfl, rfl, rfl⟩

theorem changes_wideAtMargin (h : d.Ok) (width : Nat)
    (hpad : width = 2 → d.sheet.cursorX ≥ d.sheet.cols - 1 → d.sheet.modes.autowrapMode = true →
      2 ≤ d.sheet.cols → R.pad (d.sheet.lines.getD d.sheet.cursorY { cells := [] }) d.sheet.cursorX) :
    ∀ d' ∈ d.wideAtMargin width, Changes R d d' := by
  intro d' hd'
  unfold wideAtMargin at hd'
  split_ifs at hd' with hmargin hauto hcols <;> cases hd'
  · have hblank : Changes R d d.blankCell.2 := changes_blankCell h
    obtain ⟨hlines, hx, hy, hcols'⟩ := blankCell_lines d
    have hline := hpad hmargin.1 hmargin.2 hauto (by omega)
    rw [← hlines, ← hx, ← hy] at hline
    have hpadded := (hblank.snoc (.pad _ (fill_blankCell d) (by omega) hline)
      (Effect.modifyLine hblank.ok _ fun line hlen => by simpa using hlen).ok)
    exact hpadded.trans (changes_performDeferredWrap hpadded.ok)
  · exact .refl h

/-- Interning leaves everything but the table. -/
theorem internWithGc_sheet (d : Display) (style : Style) :
    (d.internWithGc style).2.sheet.cols = d.sheet.cols ∧
    (d.internWithGc style).2.sheet.cursorX = d.sheet.cursorX := by
  obtain ⟨table, htable⟩ := internWithGc_eq d style
  rw [htable]
  exact ⟨rfl, rfl⟩

theorem changes_putChar (h : d.Ok) (c : Char) (width : Nat)
    (hwidth : R.narrow → width = 1 ∨ width = 2 ∧ d.sheet.cursorX + 1 < d.sheet.cols) :
    Changes R d (d.putChar c width) := by
  have hok := (effect_putChar h c width).ok
  have hintern : Changes R d (d.internWithGc d.state.currentStyle).2 := changes_internWithGc h _
  have hid := gives_internWithGc d d.state.currentStyle
  obtain ⟨hcols, hx⟩ := internWithGc_sheet d d.state.currentStyle
  rw [← hcols, ← hx] at hwidth
  unfold putChar at hok ⊢
  dsimp only at hok ⊢
  refine hintern.trans ?_
  have h := hintern.ok
  generalize (d.internWithGc d.state.currentStyle).1 = styleId at *
  generalize (d.internWithGc d.state.currentStyle).2 = d at *
  have hput : Changes R d (d.withSheet fun v =>
      v.putCell v.cursorX v.cursorY { c, styleId, width := width % 256 }) := by
    refine changes_edit h d.sheet.cursorY
      (.put d.sheet.cursorX { c, styleId, width := width % 256 } h.fits.cursorX hid fun hn => ?_)
      fun line hline => by simpa using hline
    obtain rfl | ⟨rfl, hlt⟩ := hwidth hn
    · exact .inl rfl
    · exact .inr ⟨rfl, hlt⟩
  refine hput.snoc (.frame _ ?_ ?_) hok <;>
    (unfold advance; dsimp only; split_ifs <;> rfl)

theorem toFrame_scrollUp (v : Sheet) (inAltScreen : Bool) (fill : Cell) : ∃ pendingStart captured,
    (v.scrollUp inAltScreen fill).toFrame = { v.toFrame with pendingStart, captured } := by
  unfold Sheet.scrollUp
  dsimp only
  split_ifs
  · exact ⟨_, _, v.capture_toFrame⟩
  · exact ⟨v.pendingStart, v.captured, rfl⟩

/-- A line feed leaves the column and the dimensions alone. -/
theorem lineFeed_column (d : Display) :
    d.lineFeed.sheet.cursorX = d.sheet.cursorX ∧ d.lineFeed.sheet.size = d.sheet.size := by
  unfold lineFeed
  split_ifs
  · obtain ⟨table, htable⟩ := internWithGc_eq d { bg := d.state.currentStyle.bg }
    have hblank : d.blankCell.2 = d.withFrame fun f => { f with styleTable := table } := htable
    obtain ⟨p, captured, hframe⟩ := toFrame_scrollUp d.blankCell.2.sheet
      d.blankCell.2.state.inAltScreen d.blankCell.1
    have hscroll : d.scrollUp.sheet.toFrame =
        { d.blankCell.2.sheet.toFrame with pendingStart := p, captured } := hframe
    rw [hscroll, hblank]
    exact ⟨rfl, rfl⟩
  · exact ⟨rfl, rfl⟩
  · exact ⟨rfl, rfl⟩

theorem performDeferredWrap_column (d : Display) :
    d.performDeferredWrap.sheet.cursorX = 0 ∧ d.performDeferredWrap.sheet.size = d.sheet.size :=
  lineFeed_column _

/-- A wide character that was not dropped fits where the cursor is. -/
theorem cursorX_of_wideAtMargin (hd' : d' ∈ d.wideAtMargin 2) :
    d'.sheet.cursorX + 1 < d'.sheet.cols := by
  unfold wideAtMargin at hd'
  split_ifs at hd' with hmargin hauto hcols
  · cases hd'
  · obtain ⟨hx, hsize⟩ := performDeferredWrap_column (d.blankCell.2.withSheet fun v =>
      v.modifyLine v.cursorY (·.set v.cursorX d.blankCell.1))
    obtain ⟨hcols', -⟩ := internWithGc_sheet d { bg := d.state.currentStyle.bg }
    rw [Option.mem_def, Option.some.injEq] at hd'
    subst hd'
    have hwide : 0 + 1 < d.blankCell.2.sheet.cols := lt_of_lt_of_eq (by omega) hcols'.symm
    exact lt_of_lt_of_eq (hx ▸ hwide) (congrArg TerminalSize.cols hsize).symm
  · cases hd'
  · rw [Option.mem_def, Option.some.injEq] at hd'
    subst hd'
    simp only [true_and, ge_iff_le, not_le] at hmargin
    omega

/-- The character is put, or dropped, where a deferred wrap has left the cursor. -/
theorem changes_place (h : d.Ok) (c : Char) {width : Nat} (hpos : width ≠ 0)
    (hnarrow : R.narrow → width ≤ 2)
    (hpad : width = 2 → d.sheet.cursorX ≥ d.sheet.cols - 1 → d.sheet.modes.autowrapMode = true →
      2 ≤ d.sheet.cols → R.pad (d.sheet.lines.getD d.sheet.cursorY { cells := [] }) d.sheet.cursorX) :
    Changes R d (match d.wideAtMargin width with
      | none => d
      | some d => d.putChar c width) := by
  split
  · exact .refl h
  next d' hd' =>
    have hwide := changes_wideAtMargin h width hpad d' hd'
    refine hwide.trans (changes_putChar hwide.ok c width fun hn => ?_)
    have hle := hnarrow hn
    obtain rfl | rfl : width = 1 ∨ width = 2 := by omega
    · exact .inl rfl
    · exact .inr ⟨rfl, cursorX_of_wideAtMargin hd'⟩

theorem changes_print (charWidth : Char → Nat) (h : d.Ok) {c : Char}
    (hc : R.AdmitsPrint charWidth d c) : Changes R d (print charWidth d c) := by
  have hok₁ : (d.withState fun s => { s with lastPrintedChar := c }).Ok :=
    (effect_withState h (f := fun s => { s with lastPrintedChar := c })
      fun s => ⟨rfl, rfl, rfl, rfl, rfl⟩).ok
  have h₁ : Changes R d (d.withState fun s => { s with lastPrintedChar := c }) :=
    .one h (.state _ rfl rfl rfl rfl rfl) hok₁
  have hpad := hc.pad
  have hnarrow := hc.narrow
  unfold print
  refine h₁.trans ?_
  dsimp only
  generalize hw : charWidth ((d.withState fun s => { s with lastPrintedChar := c }).sheet.modes.mapCharset c)
    = width
  have hw' : charWidth (d.sheet.modes.mapCharset c) = width := hw
  rw [hw'] at hpad hnarrow
  split_ifs with hzero hwrap
  · exact changes_handleCombiningMark h₁.ok _
  · -- a deferred wrap leads to the first column, where nothing is padded
    have h₂ : Changes R _ _ := changes_performDeferredWrap h₁.ok
    refine h₂.trans (changes_place h₂.ok _ hzero hnarrow fun _ hmargin _ hcols => ?_)
    obtain ⟨hx, -⟩ := performDeferredWrap_column (d.withState fun s => { s with lastPrintedChar := c })
    omega
  · refine changes_place h₁.ok _ hzero hnarrow fun hwidth hmargin hauto hcols => hpad ?_
    have hwrap' : ¬(d.sheet.wrapPending = true ∧ d.sheet.modes.autowrapMode = true) := hwrap
    have hnot : (d.sheet.wrapPending && d.sheet.modes.autowrapMode) = false := by
      simpa using hwrap'
    have hmargin' : d.sheet.cursorX ≥ d.sheet.cols - 1 := hmargin
    have hauto' : d.sheet.modes.autowrapMode = true := hauto
    have hcols' : 2 ≤ d.sheet.cols := hcols
    rw [pads, hnot, hauto', decide_eq_true hmargin', decide_eq_true hcols', hwidth]
    rfl

theorem changes_execute (h : d.Ok) (byte : UInt8) : Changes R d (d.execute byte) := by
  have hok := (effect_execute h byte).ok
  have hlf : Changes R d (d.withFrame fun f => { f with wrapPending := false }).lineFeed := by
    have hwrap : Changes R d (d.withFrame fun f => { f with wrapPending := false }) :=
      changes_withFrame h (Frame.moves_wrap _ false) rfl
    exact hwrap.trans (changes_lineFeed hwrap.ok)
  unfold execute at hok ⊢
  split
  · exact changes_withFrame h (Frame.moves_return _) rfl
  · exact hlf
  · exact hlf
  · exact hlf
  · exact changes_withFrame h (Frame.moves_cursorBack _ 1) rfl
  next hbyte =>
    rw [hbyte] at hok
    exact .one h (.frame _ rfl rfl) hok
  · exact changes_withModes h _
  · exact changes_withModes h _
  · exact changes_pushPassthrough h _
  · exact .refl h

/-! ### Control sequences -/

theorem changes_eraseCells (h : d.Ok) (y start stop : Nat) {blank : Cell}
    (hblank : blank.Fill d.sheet.styleTable) :
    Changes R d (d.withSheet (·.eraseCells y start stop blank)) := by
  by_cases hlt : start < min stop d.sheet.cols
  · have heq : d.withSheet (·.eraseCells y start stop blank) = d.withSheet
        (·.modifyLine y (·.erase d.sheet.cols start (min stop d.sheet.cols) blank)) := by
      simp only [withSheet, Sheet.eraseCells, if_pos hlt]
    rw [heq]
    exact changes_edit h y (.erase _ _ blank hlt (Nat.min_le_right _ _) hblank)
      fun line hline => by simpa using hline
  · have heq : d.withSheet (·.eraseCells y start stop blank) = d := by
      simp only [withSheet, Sheet.eraseCells, if_neg hlt]
    rw [heq]
    exact .refl h

theorem changes_eraseRows (h : d.Ok) (startY stopY : Nat) {blank : Cell}
    (hblank : blank.Fill d.sheet.styleTable) :
    Changes R d (d.withSheet (·.eraseRows startY stopY blank)) := by
  unfold withSheet Sheet.eraseRows
  generalize List.range' startY (stopY - startY) = ys
  induction ys generalizing d with
  | nil => exact .refl h
  | cons y ys ih =>
      have h₁ : Changes R d (d.withSheet (·.modifyLine y (·.eraseAll blank))) :=
        changes_edit h y (.eraseAll blank hblank) fun line hline => by simpa using hline
      exact h₁.trans (ih h₁.ok hblank)

theorem changes_csiEraseDisplay (h : d.Ok) (mode : Nat) (hclears : mode = 3 → R.clears) :
    Changes R d (d.csiEraseDisplay mode) := by
  have hblank : Changes R d d.blankCell.2 := changes_blankCell h
  have hfill := fill_blankCell d
  have hok := (effect_csiEraseDisplay h mode).ok
  unfold csiEraseDisplay at hok ⊢
  dsimp only at hok ⊢
  generalize d.blankCell.1 = blank at *
  generalize d.blankCell.2 = d at *
  have h := hblank.ok
  refine hblank.trans ?_
  split
  · have h₁ : Changes R d (d.withSheet
        (·.eraseCells d.sheet.cursorY d.sheet.cursorX d.sheet.cols blank)) :=
      changes_eraseCells h _ _ _ hfill
    refine h₁.trans (changes_eraseRows h₁.ok _ _ ?_)
    simpa [withSheet] using hfill
  · have h₁ : Changes R d (d.withSheet (·.eraseRows 0 d.sheet.cursorY blank)) :=
      changes_eraseRows h _ _ hfill
    refine h₁.trans (changes_eraseCells h₁.ok _ _ _ ?_)
    simpa [withSheet] using hfill
  · exact changes_eraseRows h _ _ hfill
  · have hclear : (d.withSheet (·.clearScrollback)).Ok := ((Effect.refl h).clear rfl).ok
    have h₁ : Changes R d (d.withSheet (·.clearScrollback)) := .one h (.clear (hclears rfl)) hclear
    exact h₁.trans (changes_pushPassthrough h₁.ok _)
  · exact .refl h

theorem changes_csiEraseLine (h : d.Ok) (mode : Nat) : Changes R d (d.csiEraseLine mode) := by
  have hblank : Changes R d d.blankCell.2 := changes_blankCell h
  unfold csiEraseLine
  dsimp only
  split
  · exact hblank.trans (changes_eraseCells hblank.ok _ _ _ (fill_blankCell d))
  · exact hblank.trans (changes_eraseCells hblank.ok _ _ _ (fill_blankCell d))
  · exact hblank.trans (changes_eraseCells hblank.ok _ _ _ (fill_blankCell d))
  · exact hblank

theorem changes_csiEraseCharacter (h : d.Ok) (n : Nat) :
    Changes R d (d.csiEraseCharacter n) := by
  have hblank : Changes R d d.blankCell.2 := changes_blankCell h
  exact hblank.trans (changes_eraseCells hblank.ok _ _ _ (fill_blankCell d))

theorem changes_csiDeleteCharacter (h : d.Ok) (n : Nat) :
    Changes R d (d.csiDeleteCharacter n) := by
  have hblank : Changes R d d.blankCell.2 := changes_blankCell h
  have hx := hblank.ok.fits.cursorX
  exact hblank.trans (changes_edit hblank.ok _ (.delete _ n _ hx (fill_blankCell d))
    fun line hline => len_deleteCells hx n _ hline)

theorem changes_csiInsertCharacter (h : d.Ok) (n : Nat) :
    Changes R d (d.csiInsertCharacter n) := by
  have hblank : Changes R d d.blankCell.2 := changes_blankCell h
  have hx := hblank.ok.fits.cursorX
  exact hblank.trans (changes_edit hblank.ok _ (.insert _ n _ hx (fill_blankCell d))
    fun line hline => len_insertCells hx n _ hline)

theorem changes_shiftLines (h : d.Ok) (n : Nat) {out into : Nat} (hout : out < d.sheet.rows)
    (hinto : into < d.sheet.rows) {blank : Cell} (hblank : blank.Fill d.sheet.styleTable) :
    Changes R d (d.withSheet (shiftLines · n out into blank)) := by
  induction n generalizing d with
  | zero => exact .refl h
  | succ n ih =>
      have h₁ := Effect.of_lines h (h.fits.shift hout hinto blank) rfl rfl rfl rfl
      have hshift : Changes R d (d.withSheet fun v =>
          (v.removeLine out).insertLine into (v.blankLine blank)) :=
        .one h (.shift out into blank hblank) h₁.ok
      exact hshift.trans (ih h₁.ok hout hinto hblank)

theorem changes_csiDeleteLines (h : d.Ok) (n : Nat) : Changes R d (d.csiDeleteLines n) := by
  have hblank : Changes R d d.blankCell.2 := changes_blankCell h
  unfold csiDeleteLines
  dsimp only
  split_ifs with hin
  · have hwrap : Changes R d.blankCell.2
        (d.blankCell.2.withFrame fun f => { f with wrapPending := false }) :=
      changes_withFrame hblank.ok (Frame.moves_wrap _ false) rfl
    have hbottom := hblank.ok.fits.bottom
    exact hblank.trans (hwrap.trans (changes_shiftLines hwrap.ok _ (hin.2.trans_lt hbottom) hbottom
      (fill_blankCell d)))
  · exact hblank

theorem changes_csiInsertLines (h : d.Ok) (n : Nat) : Changes R d (d.csiInsertLines n) := by
  have hblank : Changes R d d.blankCell.2 := changes_blankCell h
  unfold csiInsertLines
  dsimp only
  split_ifs with hin
  · have hwrap : Changes R d.blankCell.2
        (d.blankCell.2.withFrame fun f => { f with wrapPending := false }) :=
      changes_withFrame hblank.ok (Frame.moves_wrap _ false) rfl
    have hbottom := hblank.ok.fits.bottom
    exact hblank.trans (hwrap.trans (changes_shiftLines hwrap.ok _ hbottom (hin.2.trans_lt hbottom)
      (fill_blankCell d)))
  · exact hblank

theorem changes_setDecPrivateMode (h : d.Ok) (mode : Nat) (enable : Bool)
    (hsaves : mode = 1048 → enable = true → R.saves)
    (hleaves : mode = 1049 ∨ mode = 1047 ∨ mode = 47 → enable = false →
      d.state.inAltScreen = true → R.leaves d.sheet.styleTable d.mainLines) :
    Changes R d (d.setDecPrivateMode mode enable) := by
  have hok := (effect_setDecPrivateMode h mode enable).ok
  have halt : ∀ save : Bool, (mode = 1049 ∨ mode = 1047 ∨ mode = 47) →
      Changes R d (if enable then d.enterAltScreen save else d.exitAltScreen save) := by
    intro save hmode
    cases enable with
    | true => exact changes_enterAltScreen h save
    | false => exact changes_exitAltScreen h (hleaves hmode rfl) save
  unfold setDecPrivateMode at hok ⊢
  split
  case h_2 =>
    refine .one h (.frame _ ?_ ?_) hok <;> (cases enable <;> rfl)
  case h_4 => exact .one h (.frame _ rfl rfl) hok
  case h_11 =>
    cases enable with
    | true => exact .one h (.save (hsaves rfl rfl)) (effect_saveCursor h _ _).ok
    | false => exact changes_restoreCursor h _
  case h_13 => exact halt true (.inl rfl)
  case h_14 => exact halt false (.inr (.inl rfl))
  case h_15 => exact halt false (.inr (.inr rfl))
  case h_16 => exact .refl h
  all_goals exact changes_withModes h _

/-- Resetting a mode leaves the table and the main screen alone, unless it leaves the
alternate screen. -/
theorem setDecPrivateMode_false (d : Display) (mode : Nat)
    (halt : (d.setDecPrivateMode mode false).state.inAltScreen = true) :
    (d.setDecPrivateMode mode false).sheet.styleTable = d.sheet.styleTable ∧
      (d.setDecPrivateMode mode false).mainLines = d.mainLines ∧ d.state.inAltScreen = true := by
  have hexit : ∀ restore, (d.exitAltScreen restore).state.inAltScreen = true →
      (d.exitAltScreen restore).sheet.styleTable = d.sheet.styleTable ∧
        (d.exitAltScreen restore).mainLines = d.mainLines ∧ d.state.inAltScreen = true := by
    intro restore halt
    exfalso
    unfold exitAltScreen at halt
    split at halt
    next hmain => simp [halt] at hmain
    next =>
      split at halt
      · unfold restoreCursor at halt
        dsimp only at halt
        split at halt <;> cases halt
      · cases halt
  have hrestore : (d.restoreCursor false).sheet.styleTable = d.sheet.styleTable ∧
      (d.restoreCursor false).mainLines = d.mainLines ∧
      (d.restoreCursor false).state.inAltScreen = d.state.inAltScreen := by
    unfold restoreCursor
    dsimp only
    split <;> exact ⟨rfl, rfl, rfl⟩
  unfold setDecPrivateMode at halt ⊢
  split at halt
  case h_11 => exact ⟨hrestore.1, hrestore.2.1, hrestore.2.2 ▸ halt⟩
  case h_13 => exact hexit true halt
  case h_14 => exact hexit false halt
  case h_15 => exact hexit false halt
  all_goals exact ⟨rfl, rfl, halt⟩

theorem changes_csiSetDecPrivateMode (h : d.Ok) (ps : List (List Nat)) (enable : Bool)
    (hsaves : (∃ p ∈ ps, p.head? = some 1048) → enable = true → R.saves)
    (hleaves : (∃ p ∈ ps, Rules.altMode p) → enable = false →
      d.state.inAltScreen = true → R.leaves d.sheet.styleTable d.mainLines) :
    Changes R d (d.csiSetDecPrivateMode ps enable) := by
  unfold csiSetDecPrivateMode
  induction ps generalizing d with
  | nil => exact .refl h
  | cons p ps ih =>
      have hsaves' : (∃ p ∈ ps, p.head? = some 1048) → enable = true → R.saves :=
        fun ⟨q, hq, hmode⟩ => hsaves ⟨q, List.mem_cons_of_mem _ hq, hmode⟩
      have hleaves' : (∃ p ∈ ps, Rules.altMode p) → enable = false →
          d.state.inAltScreen = true → R.leaves d.sheet.styleTable d.mainLines :=
        fun ⟨q, hq, hmode⟩ => hleaves ⟨q, List.mem_cons_of_mem _ hq, hmode⟩
      cases p with
      | nil => exact ih h hsaves' hleaves'
      | cons mode rest =>
          have h₁ : Changes R d (d.setDecPrivateMode mode enable) := by
            refine changes_setDecPrivateMode h mode enable (fun hmode => ?_) fun hmode => ?_
            · exact hsaves ⟨_, List.mem_cons_self, by simp [hmode]⟩
            · refine hleaves ⟨_, List.mem_cons_self, ?_⟩
              simpa [Rules.altMode] using hmode
          refine h₁.trans (ih h₁.ok hsaves' fun hmode hfalse halt => ?_)
          subst hfalse
          obtain ⟨htable, hlines, halt'⟩ := setDecPrivateMode_false d mode halt
          rw [htable, hlines]
          exact hleaves' hmode rfl halt'

theorem changes_csiWindow (h : d.Ok) (cmd scope : Nat) : Changes R d (d.csiWindow cmd scope) := by
  have hok := (effect_csiWindow h cmd scope).ok
  unfold csiWindow at hok ⊢
  split_ifs at hok ⊢
  · exact .one h (.state _ rfl rfl rfl rfl rfl) hok
  · split
    next title rest hstack =>
      rw [hstack] at hok
      exact .one h (.state _ rfl rfl rfl rfl rfl) hok
    next => exact .refl h
  · exact .refl h
  · exact .refl h

/-- A cursor command. -/
theorem changes_move (h : d.Ok) (f : Frame → Frame) (hf : ∀ g : Frame, g.Moves (f g))
    (htable : ∀ g : Frame, (f g).styleTable = g.styleTable) : Changes R d (d.withFrame f) :=
  changes_withFrame h (hf _) (htable _)

theorem styleTable_setScrollingRegion (f : Frame) (top bottom : Nat) :
    ((f.setScrollingRegion top bottom).getD f).styleTable = f.styleTable := by
  unfold Frame.setScrollingRegion
  dsimp only
  split_ifs <;> rfl

theorem changes_csiDispatch (charWidth : Char → Nat) (h : d.Ok) (ps : List (List Nat))
    (intermediates : Bytes) (action : Char)
    (hc : R.Admits charWidth d (.csiDispatch ps intermediates action)) :
    Changes R d (d.csiDispatch charWidth ps intermediates action) := by
  obtain ⟨hrepeat, hclears, hsave, hset, hreset⟩ := hc
  have hok := (effect_csiDispatch charWidth h ps intermediates action).ok
  unfold csiDispatch at hok ⊢
  dsimp only at hok ⊢
  split
  · exact changes_move h _ (Frame.moves_cursorUp · _) fun _ => rfl
  · exact changes_move h _ (Frame.moves_cursorDown · _) fun _ => rfl
  · exact changes_move h _ (Frame.moves_cursorForward · _) fun _ => rfl
  · exact changes_move h _ (Frame.moves_cursorBack · _) fun _ => rfl
  · exact changes_move h _ (fun g => (g.moves_cursorDown _).trans (Frame.moves_home _)) fun _ => rfl
  · exact changes_move h _ (fun g => (g.moves_cursorUp _).trans (Frame.moves_home _)) fun _ => rfl
  · exact changes_move h _ (Frame.moves_cursorHorizontalAbsolute · _) fun _ => rfl
  · exact changes_move h _ (Frame.moves_cursorPosition · _ _) fun _ => rfl
  · exact changes_move h _ (Frame.moves_cursorPosition · _ _) fun _ => rfl
  · exact changes_move h _ (Frame.moves_linePositionAbsolute · _) fun _ => rfl
  · exact changes_csiEraseDisplay h _ (hclears rfl)
  · exact changes_csiEraseLine h _
  · exact changes_csiEraseCharacter h _
  · exact changes_csiDeleteCharacter h _
  · exact changes_csiInsertCharacter h _
  · refine .iterate _ h fun k hk hd => ?_
    rw [Function.iterate_succ_apply']
    exact changes_print charWidth hd (hrepeat rfl k hk)
  · exact .one h (.state _ rfl rfl rfl rfl rfl) hok
  · split_ifs
    · exact changes_pushResponse h _
    · exact .refl h
  · split_ifs
    · exact changes_pushResponse h _
    · exact changes_pushResponse h _
    · exact .refl h
  · split_ifs
    · exact changes_withModes h _
    · exact .refl h
  · refine .iterate _ h fun k _ hd => ?_
    rw [Function.iterate_succ_apply']
    exact changes_scrollUp hd
  · split_ifs
    · refine .iterate _ h fun k _ hd => ?_
      rw [Function.iterate_succ_apply']
      exact changes_scrollDown hd
    · exact .refl h
  · exact changes_csiDeleteLines h _
  · exact changes_csiInsertLines h _
  · split_ifs
    · exact changes_move h _ (Frame.moves_setScrollingRegion · _ _)
        fun _ => styleTable_setScrollingRegion _ _ _
    · exact .refl h
  · split_ifs with hplain
    · exact .one h (.save (hsave rfl hplain)) (effect_saveCursor h _ _).ok
    · exact .refl h
  · split_ifs
    · exact changes_restoreCursor h _
    · exact .refl h
  · split_ifs
    · split
      · exact changes_move h _ (fun g => g.moves_tabs (by simp)) fun _ => rfl
      · exact changes_move h _ (fun g => g.moves_tabs (by simp)) fun _ => rfl
      · exact .refl h
    · exact .refl h
  · exact changes_csiWindow h _ _
  · split_ifs with hprivate
    · exact changes_csiSetDecPrivateMode h _ _ (fun hmode _ => hset rfl hprivate hmode)
        (fun _ hfalse => by cases hfalse)
    · exact .refl h
  · split_ifs with hprivate
    · exact changes_csiSetDecPrivateMode h _ _ (fun _ hfalse => by cases hfalse)
        (fun hmode _ => hreset rfl hprivate hmode)
    · exact .refl h
  · exact .refl h

/-! ### Escape sequences and operating system commands -/

theorem changes_putCells (h : d.Ok) (y : Nat) {xs : List Nat} {cell : Cell}
    (hxs : ∀ x ∈ xs, x < d.sheet.cols) (hid : d.sheet.styleTable.Gives cell.styleId)
    (hwidth : cell.width = 1) :
    Changes R d (d.withSheet fun v => xs.foldl (fun v x => v.putCell x y cell) v) := by
  induction xs generalizing d with
  | nil => exact .refl h
  | cons x xs ih =>
      have h₁ : Changes R d (d.withSheet (·.modifyLine y (·.put d.sheet.cols x cell))) :=
        changes_edit h y (.put x cell (hxs x List.mem_cons_self) hid fun _ => .inl hwidth)
          fun line hline => by simpa using hline
      exact h₁.trans (ih h₁.ok (fun x hx => hxs x (List.mem_cons_of_mem _ hx)) hid)

theorem toFrame_putCells (v : Sheet) (y : Nat) (xs : List Nat) (cell : Cell) :
    (xs.foldl (fun v x => v.putCell x y cell) v).toFrame = v.toFrame := by
  induction xs generalizing v with
  | nil => rfl
  | cons x xs ih => exact ih (v.putCell x y cell)

theorem changes_alignmentPattern (h : d.Ok) : Changes R d d.alignmentPattern := by
  have hhome : Changes R d (d.withFrame fun f =>
      { f.resetScrollRegion with cursorX := 0, cursorY := 0, wrapPending := false }) :=
    changes_withFrame h (Frame.moves_origin _) rfl
  have hintern := hhome.trans (changes_internWithGc hhome.ok {})
  have hid := gives_internWithGc (d.withFrame fun f =>
      { f.resetScrollRegion with cursorX := 0, cursorY := 0, wrapPending := false }) {}
  refine hintern.trans ?_
  have hall : ∀ (ys : List Nat) (d : Display) (id : Nat), d.Ok → d.sheet.styleTable.Gives id →
      Changes R d (d.withSheet fun v => ys.foldl (fun v y => (List.range v.cols).foldl
        (fun v x => v.putCell x y { c := 'E', styleId := id }) v) v) := by
    intro ys
    induction ys with
    | nil => exact fun d _ hd _ => .refl hd
    | cons y ys ih =>
        intro d id hd hid
        have h₁ : Changes R d (d.withSheet fun v => (List.range d.sheet.cols).foldl
            (fun v x => v.putCell x y { c := 'E', styleId := id }) v) :=
          changes_putCells hd y (fun x hx => List.mem_range.mp hx) hid rfl
        refine h₁.trans (ih _ id h₁.ok ?_)
        have hframe := toFrame_putCells d.sheet y (List.range d.sheet.cols)
          { c := 'E', styleId := id }
        exact (congrArg (fun f : Frame => f.styleTable.Gives id) hframe).mpr hid
  exact hall _ _ _ hintern.ok hid

theorem changes_reverseIndex (h : d.Ok) : Changes R d d.reverseIndex := by
  have hok := (effect_reverseIndex h).ok
  unfold reverseIndex at hok ⊢
  split_ifs at hok ⊢
  · exact changes_scrollDown h
  · exact .one h (.frame _ rfl rfl) hok
  · exact .refl h

theorem changes_escDispatch (h : d.Ok) (intermediates : Bytes) (byte : UInt8)
    (hsaves : intermediates = [] → byte = 0x37 → R.saves)
    (hresets : intermediates = [] → byte = 0x63 → R.resets) :
    Changes R d (d.escDispatch intermediates byte) := by
  have hlf : ∀ f : Frame → Frame, (∀ g : Frame, g.Moves (f g)) →
      (∀ g : Frame, (f g).styleTable = g.styleTable) → Changes R d (d.withFrame f).lineFeed := by
    intro f hf htable
    have h₁ : Changes R d (d.withFrame f) := changes_move h f hf htable
    exact h₁.trans (changes_lineFeed h₁.ok)
  unfold escDispatch
  split
  · exact changes_withFrame h (Frame.moves_tabs _ (by simp)) rfl
  · exact hlf _ (Frame.moves_wrap · false) fun _ => rfl
  · exact hlf _ Frame.moves_return fun _ => rfl
  · exact changes_reverseIndex h
  next hi hb =>
    have hsave := hsaves (by simpa using hi) (UInt8.toNat_inj.mp hb)
    exact .one h (.save hsave) (effect_saveCursor h _ _).ok
  · exact changes_restoreCursor h _
  next hi hb =>
    have hreset := hresets (by simpa using hi) (UInt8.toNat_inj.mp hb)
    exact .one h (.reset hreset) (effect_fullReset h).ok
  · exact changes_withModes h _
  · exact changes_withModes h _
  · exact changes_withModes h _
  · exact changes_withModes h _
  · exact changes_withModes h _
  · exact changes_withModes h _
  · exact changes_alignmentPattern h
  · exact .refl h

theorem changes_oscDispatch (h : d.Ok) (params : List Bytes) (bell : Bool) :
    Changes R d (d.oscDispatch params bell) := by
  have hok := (effect_oscDispatch h params bell).ok
  unfold oscDispatch at hok ⊢
  split_ifs at hok ⊢
  · exact .refl h
  · split
    case h_1 hnumber =>
      rw [hnumber] at hok
      split
      next title htitle =>
        rw [htitle] at hok
        exact .one h (.state _ rfl rfl rfl rfl rfl) hok
      · exact .refl h
    case h_2 hnumber =>
      rw [hnumber] at hok
      split
      next title htitle =>
        rw [htitle] at hok
        exact .one h (.state _ rfl rfl rfl rfl rfl) hok
      · exact .refl h
    case h_6 => exact changes_pushPassthrough h _
    case h_3 hnumber =>
      rw [hnumber] at hok
      exact .one h (.state _ rfl rfl rfl rfl rfl) hok
    case h_4 hnumber =>
      rw [hnumber] at hok
      exact .one h (.state _ rfl rfl rfl rfl rfl) hok
    case h_5 hnumber =>
      rw [hnumber] at hok
      exact .one h (.state _ rfl rfl rfl rfl rfl) hok

/-- A callback is a sequence of changes. -/
theorem changes_callback (charWidth : Char → Nat) (h : d.Ok) {c : Callback}
    (hc : R.Admits charWidth d c) : Changes R d (d.callback charWidth c) := by
  cases c with
  | print c => exact changes_print charWidth h hc
  | execute byte => exact changes_execute h byte
  | csiDispatch params intermediates action =>
      exact changes_csiDispatch charWidth h params intermediates action hc
  | escDispatch intermediates byte => exact changes_escDispatch h intermediates byte hc.1 hc.2
  | oscDispatch params bell => exact changes_oscDispatch h params bell

end Display

end QuorumDispatch.Screen
