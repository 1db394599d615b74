import QuorumDispatch.Screen.AllLines
import QuorumDispatch.Screen.Widths
import QuorumDispatch.Screen.Reachable

/-!
Wide characters on the screen. Every operation that writes into a line mends the
pairs it breaks, all but one: the blank that pads the right margin, when a wide
character has to wrap early, is written without a look at the cell that it replaces.
If that is the second half of a wide character, the first half is left alone.
-/

namespace QuorumDispatch.Screen

open Lib

set_option linter.dupNamespace false

/-! ### The property -/

/-- In the row every first half of a wide character is followed by a second half, and
every second half follows a first. -/
def Row.WideCharsPaired (row : Row) : Prop :=
  ∀ (x : Nat) (cell : Cell), row.cells[x]? = some cell →
    (cell.width = 2 → ∃ next : Cell, row.cells[x + 1]? = some next ∧ next.width = 0) ∧
    (cell.width = 0 → ∃ (y : Nat) (prev : Cell), x = y + 1 ∧ row.cells[y]? = some prev ∧ prev.width = 2)

def Terminal.WideCharsPaired (t : Terminal) : Prop :=
  ∀ row ∈ t.grid.visibleRows, row.WideCharsPaired

theorem Row.wideCharsPaired_of_line {row : Row} (h : row.toLine.WidePaired) :
    row.WideCharsPaired := by
  have hwidth : ∀ {x : Nat} {cell : Cell}, row.cells[x]? = some cell →
      row.toLine.widths x = cell.width := by
    intro x cell hcell
    simp [Line.widths, Line.widthAt, hcell]
  -- a width other than that of a blank is the width of a cell
  have hcell : ∀ {x k : Nat}, row.toLine.widths x = k → k ≠ 1 →
      ∃ cell, row.cells[x]? = some cell ∧ cell.width = k := by
    intro x k hk hne
    cases hcell : row.cells[x]? with
    | none =>
        have hle : row.toLine.len ≤ x := List.getElem?_eq_none_iff.mp hcell
        exact absurd (hk.symm.trans (Line.widths_of_le hle)) hne
    | some cell => exact ⟨cell, rfl, (hwidth hcell).symm.trans hk⟩
  intro x cell hx
  refine ⟨fun htwo => ?_, fun hzero => ?_⟩
  · exact hcell ((h.pair x).mp ((hwidth hx).trans htwo)) (by simp)
  · cases x with
    | zero => exact absurd ((hwidth hx).trans hzero) h.first
    | succ y =>
        obtain ⟨prev, hprev, htwo⟩ := hcell ((h.pair y).mpr ((hwidth hx).trans hzero)) (by simp)
        exact ⟨y, prev, rfl, hprev, htwo⟩

/-! ### The condition -/

def Terminal.cursorCell? (t : Terminal) : Option Cell :=
  (t.grid.visibleRow? t.grid.cursorY).bind (·.get? t.grid.cursorX)

/-- Printing the character does not pad the right margin over the second half of a wide
character. -/
def Terminal.padsSafely (charWidth : Char → Nat) (t : Terminal) (c : Char) : Bool :=
  let g := t.grid
  !(charWidth (g.modes.mapCharset c) == 2 && !(g.wrapPending && g.modes.autowrapMode) &&
    decide (g.cursorX ≥ g.cols - 1) && g.modes.autowrapMode && decide (2 ≤ g.cols)) ||
  t.cursorCell?.all fun cell => cell.width != 0

def Terminal.eventPadsSafely (charWidth : Char → Nat) (t : Terminal) : Event → Bool
  | .callback (.print c) => t.padsSafely charWidth c
  | .callback (.csiDispatch ps _ 'b') =>
      (List.range (param ps 0 1)).all fun k =>
        (times k (·.print? charWidth t.state.lastPrintedChar) t).all
          (·.padsSafely charWidth t.state.lastPrintedChar)
  | _ => true

def Screen.runPadsSafely (charWidth : Char → Nat) (s : Screen) (events : List Event) : Bool :=
  s.runMeets charWidth (Terminal.eventPadsSafely charWidth) events

/-! ### Every change -/

/-- Characters of at most two columns, padded where there is no second half. -/
def pairing : Rules where
  narrow := True
  pad line x := line.widthAt x ≠ 0
  saves := True
  clears := True
  leaves _ _ := True
  resets := True

theorem lineRule_pairing {d : Display} : LineRule pairing Line.WidePaired d where
  blank fill hfill := Line.widePaired_of_blank fun cell hcell => by
    rw [List.eq_of_mem_replicate hcell]
    exact hfill.width
  new := Line.widePaired_of_blank fun cell hcell => by
    rw [List.eq_of_mem_replicate hcell]
  edit f hf line hlen h := by
    cases hf with
    | put x cell hx _ hwidth => exact h.put hlen hx (hwidth trivial)
    | erase start stop blank hlt hle hblank => exact h.erase hlen hlt hle hblank.width
    | eraseAll blank hblank =>
        refine Line.widePaired_of_blank fun cell hcell => ?_
        obtain ⟨-, -, rfl⟩ := List.mem_map.mp hcell
        exact hblank.width
    | mark x c => exact h
    | delete x n blank hx hblank => exact h.deleteCells hlen hx hblank.width
    | insert x n blank hx hblank => exact h.insertCells hlen hx hblank.width
  pad line x blank hpad hblank hlen hx h :=
    -- the last cell is no first half, and what is padded no second half
    h.set (by omega) ⟨hpad, h.last_ne_two (by omega)⟩ hblank.width
  fit line h := h.fitLine _ d.sheet.cols_pos

/-! ### Runs -/

namespace Terminal

variable {charWidth : Char → Nat} {t : Terminal} {d : Display}

theorem Shows.cursorCell? (h : t.Shows d) (hd : d.Ok) : ∃ cell, t.cursorCell? = some cell ∧
    (d.sheet.lines.getD d.sheet.cursorY { cells := [] }).widthAt d.sheet.cursorX = cell.width := by
  have hy : d.sheet.cursorY < d.sheet.lines.length := hd.fits.lt_length hd.fits.cursorY
  have hx : d.sheet.cursorX < d.sheet.lines[d.sheet.cursorY].cells.length := by
    have := hd.fits.len hy
    rw [Line.len] at this
    rw [this]
    exact hd.fits.cursorX
  obtain ⟨row, hrow, hline⟩ := h.grid.visibleRow? hy
  have hcells : row.cells[d.sheet.cursorX]? = some d.sheet.lines[d.sheet.cursorY].cells[d.sheet.cursorX] := by
    rw [show row.cells = d.sheet.lines[d.sheet.cursorY].cells from congrArg Line.cells hline]
    exact List.getElem?_eq_getElem hx
  refine ⟨d.sheet.lines[d.sheet.cursorY].cells[d.sheet.cursorX], ?_, ?_⟩
  · rw [Terminal.cursorCell?, show t.grid.cursorY = d.sheet.cursorY from
      congrArg Frame.cursorY h.frame, show t.grid.cursorX = d.sheet.cursorX from
      congrArg Frame.cursorX h.frame, hrow]
    exact hcells
  · rw [List.getD_eq_getElem?_getD, List.getElem?_eq_getElem hy, Option.getD_some, Line.widthAt,
      List.getD_eq_getElem?_getD, List.getElem?_eq_getElem hx]
    rfl

theorem Shows.admitsPrint (h : t.Shows d) (hd : d.Ok) (hwidth : ∀ c, charWidth c ≤ 2) {c : Char}
    (hsafe : t.padsSafely charWidth c = true) : pairing.AdmitsPrint charWidth d c := by
  refine ⟨fun _ => hwidth _, fun hpads => ?_⟩
  obtain ⟨cell, hcell, hwidthAt⟩ := h.cursorCell? hd
  have hframe := h.frame
  have hpads' : (charWidth (t.grid.modes.mapCharset c) == 2 &&
      !(t.grid.wrapPending && t.grid.modes.autowrapMode) &&
      decide (t.grid.cursorX ≥ t.grid.cols - 1) && t.grid.modes.autowrapMode &&
      decide (2 ≤ t.grid.cols)) = true := by
    rw [hframe]
    exact hpads
  rw [padsSafely] at hsafe
  simp only [hpads', hcell, Bool.not_true, Bool.false_or, Option.all_some, bne_iff_ne] at hsafe
  exact fun hzero => hsafe (hwidthAt.symm.trans hzero)

theorem Shows.admits (h : t.Shows d) (hd : d.Ok) (hwidth : ∀ c, charWidth c ≤ 2) {c : Callback}
    (hsafe : t.eventPadsSafely charWidth (.callback c) = true) : pairing.Admits charWidth d c := by
  cases c with
  | print c => exact h.admitsPrint hd hwidth hsafe
  | execute => trivial
  | oscDispatch => trivial
  | escDispatch => exact ⟨fun _ _ => trivial, fun _ _ => trivial⟩
  | csiDispatch ps intermediates action =>
      refine ⟨?_, fun _ _ => trivial, fun _ _ => trivial, fun _ _ _ => trivial,
        fun _ _ _ _ => trivial⟩
      rintro rfl k hk
      have hlast : t.state.lastPrintedChar = d.state.lastPrintedChar :=
        congrArg ScreenState.lastPrintedChar h.state
      simp only [eventPadsSafely, List.all_eq_true, List.mem_range] at hsafe
      have hk := hsafe k hk
      rw [hlast] at hk
      have hsim : Returns (Lib.times k (fun t : Terminal => t.print? charWidth d.state.lastPrintedChar) t)
          fun (t' : Terminal) =>
            t'.Shows ((Display.print charWidth · d.state.lastPrintedChar)^[k] d) ∧
              ((Display.print charWidth · d.state.lastPrintedChar)^[k] d).Ok :=
        Returns.times_sim (R := fun (t : Terminal) (d : Display) => t.Shows d ∧ d.Ok) ⟨h, hd⟩
          fun t d ⟨h, hd⟩ => (h.print? charWidth hd _).mono fun t' ht' =>
            ⟨ht', (Display.effect_print charWidth hd _).ok⟩
      obtain ⟨t', ht', hs, hok⟩ := hsim
      rw [ht', Option.all_some] at hk
      exact hs.admitsPrint hok hwidth hk

def LinesPaired (t : Terminal) : Prop :=
  ∃ d : Display, d.Ok ∧ t.Shows d ∧ d.AllLines Line.WidePaired

theorem LinesPaired.step? {t' : Terminal} {e : Event} (h : t.LinesPaired)
    (hwidth : ∀ c, charWidth c ≤ 2) (hsafe : t.eventPadsSafely charWidth e = true)
    (hstep : t.step? charWidth e = some t') : t'.LinesPaired := by
  obtain ⟨d, hd, hs, hall⟩ := h
  obtain ⟨d', hstep', hs', hd'⟩ := hs.of_step? hd hstep
  refine ⟨d', hd', hs', ?_⟩
  cases hstep' with
  | callback c =>
      have hchanges := Display.changes_callback charWidth hd (hs.admits hd hwidth hsafe)
      exact hall.changes hchanges fun _ => lineRule_pairing
  | resize cols rows keepWrap =>
      refine hall.resize cols rows keepWrap ?_ fun line hline => ?_
      · refine Line.widePaired_of_blank fun cell hcell => ?_
        rw [List.eq_of_mem_replicate hcell]
      · exact hline.fitLine _ (sanitizeDimensions cols rows).cols_pos

theorem LinesPaired.wideCharsPaired (h : t.LinesPaired) : t.WideCharsPaired := by
  obtain ⟨d, hd, hs, hall⟩ := h
  intro row hrow
  refine Row.wideCharsPaired_of_line (hall.lines _ ?_)
  have hmem : row ∈ t.grid.cells.drop t.grid.scrollbackLen := List.mem_of_mem_take hrow
  have := List.mem_map_of_mem (f := Row.toLine) hmem
  rwa [List.map_drop, hs.grid.cells, hs.grid.boundary, List.drop_left] at this

theorem linesPaired_new (cols rows : UInt16) (limit : Nat) (logicalShadow : Bool) :
    LinesPaired { grid := .new cols rows limit logicalShadow } := by
  refine ⟨_, ok_new cols rows limit logicalShadow, shows_new .., ?_, by simp [Sheet.new],
    by simp⟩
  intro line hline
  rw [List.eq_of_mem_replicate hline]
  refine Line.widePaired_of_blank fun cell hcell => ?_
  rw [List.eq_of_mem_replicate hcell]

end Terminal

namespace Screen

/-- With characters of at most two columns, in every run that never pads the margin over
the second half of a wide character, the wide characters of all visible rows are paired in
every state reached. -/
theorem wideCharsPaired_of_padsSafely (charWidth : Char → Nat) (hwidth : ∀ c, charWidth c ≤ 2)
    (cols rows : UInt16) (limit : Nat) (pre post : List Event) (s : Screen)
    (hsafe : (Screen.new cols rows limit).runPadsSafely charWidth (pre ++ post) = true)
    (hrun : (Screen.new cols rows limit).run? charWidth pre = some s) :
    s.terminal.WideCharsPaired ∧ s.logical.WideCharsPaired := by
  obtain ⟨hterminal, hlogical⟩ := run?_invariant (I := Terminal.LinesPaired)
    (fun h hsafe hstep => h.step? hwidth hsafe hstep)
    ⟨Terminal.linesPaired_new cols rows limit false, Terminal.linesPaired_new cols rows limit true⟩
    hsafe hrun
  exact ⟨hterminal.wideCharsPaired, hlogical.wideCharsPaired⟩

def ideographWidth (c : Char) : Nat := if c = '漢' then 2 else 1

theorem ideographWidth_le (c : Char) : ideographWidth c ≤ 2 := by
  unfold ideographWidth
  split_ifs <;> simp

def earlyWrap : List Event :=
  [.callback (.print 'a'), .callback (.print '漢'), .callback (.print '漢')]

theorem wideCharsPaired_earlyWrap :
    ∃ s, (Screen.new 4 2 5).run? ideographWidth earlyWrap = some s ∧
      s.terminal.WideCharsPaired ∧ s.logical.WideCharsPaired := by
  refine ⟨_, rfl, ?_⟩
  exact wideCharsPaired_of_padsSafely ideographWidth ideographWidth_le 4 2 5 earlyWrap [] _
    (by decide) rfl

/-- An ideograph in the last two columns, and another one printed from the last. -/
def padOverWide : List Event :=
  [.callback (.print 'a'), .callback (.print 'b'), .callback (.print '漢'),
    .callback (.csiDispatch [[1], [4]] [] 'H'), .callback (.print '漢')]

/-- The first half of the first ideograph is left alone. -/
theorem padOverWide_not_paired :
    ∃ s, (Screen.new 4 2 5).run? ideographWidth padOverWide = some s ∧
      ¬s.terminal.WideCharsPaired := by
  have hbad : ∃ s, (Screen.new 4 2 5).run? ideographWidth padOverWide = some s ∧
      ∃ row ∈ s.terminal.grid.visibleRows, row.cells.map Cell.width = [1, 1, 2, 1] :=
    ⟨_, rfl, by decide⟩
  obtain ⟨s, hs, row, hrow, hwidths⟩ := hbad
  refine ⟨s, hs, fun h => ?_⟩
  have hat : ∀ x : Nat, row.cells[x]?.map Cell.width = [1, 1, 2, 1][x]? := by
    intro x
    rw [← hwidths, List.getElem?_map]
  obtain ⟨cell, hcell, htwo⟩ := Option.map_eq_some_iff.mp (hat 2)
  obtain ⟨next, hnext, hzero⟩ := (h row hrow 2 cell hcell).1 htwo
  have hone := hat 3
  rw [hnext, Option.map_some, hzero] at hone
  simp at hone

end Screen

end QuorumDispatch.Screen
