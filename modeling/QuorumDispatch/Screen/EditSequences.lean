import QuorumDispatch.Screen.EditLocality
import QuorumDispatch.Screen.Pairing

/-!
The control sequences that erase, delete and insert characters. Each edits the cursor's row, or blanks
rows as a whole, and leaves the rest of the screen alone. The edit of the row is local under a
condition on the wide characters at the ends of what it addresses.
-/

namespace QuorumDispatch.Screen

open Lib

set_option linter.dupNamespace false

/-- The edits within a row: columns are erased, or so many of them are deleted or inserted. -/
inductive RowEdit where
  | erase (start stop : Nat)
  | delete (x n : Nat)
  | insert (x n : Nat)

namespace RowEdit

/-! ### Edits of a line -/

def apply (cols : Nat) (blank : Cell) : RowEdit → Line → Line
  | erase start stop => (·.erase cols start stop blank)
  | delete x n => Display.deleteCells cols x n blank
  | insert x n => Display.insertCells cols x n blank

def moves (cols : Nat) : RowEdit → Moves
  | erase start stop => erasing start stop
  | delete x n => deleting x (min n (cols - x))
  | insert x n => inserting cols x (min n (cols - x))

def Within (cols : Nat) : RowEdit → Prop
  | erase start stop => start < stop ∧ stop ≤ cols
  | delete x n => x < cols ∧ 0 < n
  | insert x n => x < cols ∧ 0 < n

def CellsSpared (cols : Nat) (f : Nat → Cell) : RowEdit → Prop
  | erase start stop => EraseSpares cols f start stop
  | delete x n => DeleteSpares cols f x (min n (cols - x))
  | insert x n => InsertSpares cols f x (min n (cols - x))

/-- What an edit asks of a line. No marks are on half of a wide character that is torn apart. -/
structure Spares (e : RowEdit) (cols : Nat) (l : Line) : Prop where
  cells : e.CellsSpared cols l.cellAt
  marks : ∀ c < cols, e.moves cols c ≠ none → Torn (e.moves cols) l.cellAt c → l.combiningAt c = []

structure Local (e : RowEdit) (cols : Nat) (blank : Cell) (l l' : Line) : Prop where
  len : l'.len = l.len
  cells : EditsLocally cols (e.moves cols) blank l.cellAt l'.cellAt
  fresh : ∀ d < cols, (∀ c < cols, e.moves cols c ≠ some d) → l'.combiningAt d = []
  torn : ∀ c < cols, ∀ d, e.moves cols c = some d → Torn (e.moves cols) l.cellAt c →
    l'.combiningAt d = []
  kept : ∀ c < cols, ∀ d, e.moves cols c = some d → ¬Torn (e.moves cols) l.cellAt c →
    l'.combiningAt d = l.combiningAt c

variable {e : RowEdit} {cols : Nat} {blank fill : Cell} {l : Line}

theorem len_apply (he : e.Within cols) (hlen : l.len = cols) : (e.apply cols blank l).len = l.len := by
  cases e with
  | erase start stop => exact Line.len_erase ..
  | delete x n => rw [hlen]; exact Display.len_deleteCells he.1 n _ hlen
  | insert x n => rw [hlen]; exact Display.len_insertCells he.1 n _ hlen

/-- The columns that were deleted or inserted. -/
theorem min_within {x n : Nat} (h : x < cols ∧ 0 < n) :
    0 < min n (cols - x) ∧ x + min n (cols - x) ≤ cols := by
  omega

/-! The cells. -/

theorem cellAt_delete (hlen : l.len = cols) {x : Nat} (hx : x < cols) (n : Nat) :
    (Display.deleteCells cols x n blank l).cellAt =
      deletedCells cols x (min n (cols - x)) blank l.cellAt := by
  have hlen' : (l.fixupWideCharAt cols x).len = cols := by simpa using hlen
  have hshift : ((fun l => (l.remove x).push blank)^[min n (cols - x)]
      (l.fixupWideCharAt cols x)).cellAt = movedUp cols x (min n (cols - x)) blank l.cellAt := by
    rw [Line.cellAt_deleteCells hlen' hx (by omega), Line.cellAt_fixupWideCharAt hlen hx]
    rfl
  have hx' : x < ((fun l => (l.remove x).push blank)^[min n (cols - x)]
      (l.fixupWideCharAt cols x)).len := by
    rw [Display.len_iterate (fun l hl => ?_) _ hlen']
    · exact hx
    · rw [Line.len_push, Line.len_remove _ (by omega)]
      omega
  unfold Display.deleteCells deletedCells
  rw [Line.cellAt_fixDeleted hx', hshift]

theorem cellAt_insert (hlen : l.len = cols) {x : Nat} (hx : x < cols) (n : Nat) :
    (Display.insertCells cols x n blank l).cellAt =
      insertedCells cols x (min n (cols - x)) blank l.cellAt := by
  have hlen' : (l.fixupWideCharAt cols x).len = cols := by simpa using hlen
  have hshift : ((fun l => l.pop.insert x blank)^[min n (cols - x)]
      (l.fixupWideCharAt cols x)).cellAt = movedDown cols x (min n (cols - x)) blank l.cellAt := by
    rw [Line.cellAt_insertCells hlen' hx (by omega), Line.cellAt_fixupWideCharAt hlen hx]
    rfl
  have hlast : cols - 1 < ((fun l => l.pop.insert x blank)^[min n (cols - x)]
      (l.fixupWideCharAt cols x)).len := by
    rw [Display.len_iterate (fun l hl => Line.len_insertCell hl hx) _ hlen']
    omega
  unfold Display.insertCells insertedCells
  rw [Line.cellAt_fixInserted hlast, hshift]

theorem cellsSpared_of_local (he : e.Within cols) (hlen : l.len = cols) (hblank : blank.width = 1)
    (h : EditsLocally cols (e.moves cols) fill l.cellAt (e.apply cols blank l).cellAt) :
    e.CellsSpared cols l.cellAt := by
  cases e with
  | erase start stop =>
      obtain ⟨hlt, hle⟩ := he
      change EditsLocally _ _ _ _ (l.erase cols start stop blank).cellAt at h
      rw [Line.cellAt_erase hlen hlt hle] at h
      exact eraseSpares_of_local hlt hle h
  | delete x n =>
      obtain ⟨hk, hle⟩ := min_within he
      change EditsLocally _ _ _ _ (Display.deleteCells cols x n blank l).cellAt at h
      rw [cellAt_delete hlen he.1] at h
      exact deleteSpares_of_local he.1 hk hle hblank h
  | insert x n =>
      obtain ⟨hk, hle⟩ := min_within he
      change EditsLocally _ _ _ _ (Display.insertCells cols x n blank l).cellAt at h
      rw [cellAt_insert hlen he.1] at h
      exact insertSpares_of_local he.1 hk hle hblank h

theorem CellsSpared.editsLocally (h : e.CellsSpared cols l.cellAt) (he : e.Within cols)
    (hlen : l.len = cols) (hblank : blank.width = 1) :
    EditsLocally cols (e.moves cols) blank l.cellAt (e.apply cols blank l).cellAt := by
  cases e with
  | erase start stop =>
      obtain ⟨hlt, hle⟩ := he
      change EditsLocally _ _ _ _ (l.erase cols start stop blank).cellAt
      rw [Line.cellAt_erase hlen hlt hle]
      exact EraseSpares.editsLocally h hlt hle
  | delete x n =>
      obtain ⟨hk, hle⟩ := min_within he
      change EditsLocally _ _ _ _ (Display.deleteCells cols x n blank l).cellAt
      rw [cellAt_delete hlen he.1]
      exact DeleteSpares.editsLocally h he.1 hk hle hblank
  | insert x n =>
      obtain ⟨hk, hle⟩ := min_within he
      change EditsLocally _ _ _ _ (Display.insertCells cols x n blank l).cellAt
      rw [cellAt_insert hlen he.1]
      exact InsertSpares.editsLocally h he.1 hk hle hblank

/-! The marks, which always move with the columns. -/

theorem combiningAt_moved (he : e.Within cols) (hlen : l.len = cols) (hcols : cols < 65536) {c d : Nat}
    (hc : c < cols) (hcd : e.moves cols c = some d) :
    (e.apply cols blank l).combiningAt d = l.combiningAt c := by
  cases e with
  | erase start stop =>
      obtain ⟨hout, rfl⟩ := erasing_eq_some.mp hcd
      exact (Line.combiningAt_erase ..).trans (if_neg (by omega))
  | delete x n =>
      refine (Line.combiningAt_deleteCells ..).trans ?_
      rcases deleting_eq_some.mp hcd with ⟨hlt, rfl⟩ | ⟨hle, rfl⟩
      · exact if_pos hlt
      · exact if_neg (by omega)
  | insert x n =>
      rcases inserting_eq_some.mp hcd with ⟨hlt, rfl⟩ | ⟨hxc, hck, rfl⟩
      · exact (Line.combiningAt_insertCells hlen hcols he.1 hc).trans (if_pos hlt)
      · refine (Line.combiningAt_insertCells hlen hcols he.1 hck).trans ?_
        rw [if_neg (by omega), if_neg (by omega), Nat.add_sub_cancel]

theorem combiningAt_fresh (he : e.Within cols) (hlen : l.len = cols) (hcols : cols < 65536)
    (hmarks : l.MarksWithin) {d : Nat} (hd : d < cols) (hnone : ∀ c < cols, e.moves cols c ≠ some d) :
    (e.apply cols blank l).combiningAt d = [] := by
  cases e with
  | erase start stop =>
      refine (Line.combiningAt_erase ..).trans (if_pos ?_)
      by_contra hout
      exact hnone d hd (erasing_eq_some.mpr ⟨by omega, rfl⟩)
  | delete x n =>
      refine (Line.combiningAt_deleteCells ..).trans ?_
      split_ifs with hlt
      · exact absurd (deleting_eq_some.mpr (.inl ⟨hlt, rfl⟩)) (hnone d hd)
      · refine hmarks.combiningAt ?_
        by_contra hin
        exact hnone _ (by omega) (deleting_eq_some.mpr (.inr ⟨by omega, rfl⟩))
  | insert x n =>
      refine (Line.combiningAt_insertCells hlen hcols he.1 hd).trans ?_
      split_ifs with hlt hin
      · exact absurd (inserting_eq_some.mpr (.inl ⟨hlt, rfl⟩)) (hnone d hd)
      · rfl
      · refine absurd (inserting_eq_some.mpr (.inr ⟨?_, ?_, ?_⟩))
          (hnone (d - min n (cols - x)) (by omega)) <;> omega

/-- An edit of a line is local exactly when it finds what it asks for. -/
theorem spares_of_local (he : e.Within cols) (hlen : l.len = cols) (hcols : cols < 65536)
    (hblank : blank.width = 1) (h : e.Local cols fill l (e.apply cols blank l)) : e.Spares cols l := by
  refine ⟨cellsSpared_of_local he hlen hblank h.cells, fun c hc hsome htorn => ?_⟩
  obtain ⟨d, hcd⟩ := Option.ne_none_iff_exists'.mp hsome
  rw [← combiningAt_moved he hlen hcols hc hcd]
  exact h.torn c hc d hcd htorn

theorem Spares.local_apply (h : e.Spares cols l) (he : e.Within cols) (hlen : l.len = cols)
    (hcols : cols < 65536) (hmarks : l.MarksWithin) (hblank : blank.width = 1) :
    e.Local cols blank l (e.apply cols blank l) where
  len := len_apply he hlen
  cells := CellsSpared.editsLocally h.cells he hlen hblank
  fresh d hd hnone := combiningAt_fresh he hlen hcols hmarks hd hnone
  torn c hc d hcd htorn := by
    rw [combiningAt_moved he hlen hcols hc hcd]
    exact h.marks c hc (by simp [hcd]) htorn
  kept c hc d hcd _ := combiningAt_moved he hlen hcols hc hcd

/-! ### Control sequences -/

/-- The columns of the cursor's row that a mode erases, the cursor being in column `x`. -/
def ofMode? (cols x : Nat) : Nat → Option RowEdit
  | 0 => some (.erase x cols)
  | 1 => some (.erase 0 (x + 1))
  | 2 => some (.erase 0 cols)
  | _ => none

def ofCsi? (cols x : Nat) (ps : List (List Nat)) : Char → Option RowEdit
  | 'X' => some (.erase x (min (x + param ps 0 1) cols))
  | 'K' | 'J' => ofMode? cols x (param ps 0 0)
  | 'P' => some (.delete x (param ps 0 1))
  | '@' => some (.insert x (param ps 0 1))
  | _ => none

theorem one_le_param (ps : List (List Nat)) (i : Nat) : 0 < param ps i 1 := by
  unfold param
  split
  · split_ifs <;> omega
  · exact Nat.one_pos

theorem within_ofMode? {x mode : Nat} (hx : x < cols) (h : ofMode? cols x mode = some e) :
    e.Within cols := by
  unfold ofMode? at h
  split at h <;> cases h <;> exact ⟨by omega, by omega⟩

theorem within_ofCsi? {x : Nat} (hx : x < cols) {ps : List (List Nat)} {action : Char}
    (h : ofCsi? cols x ps action = some e) : e.Within cols := by
  have hn := one_le_param ps 0
  unfold ofCsi? at h
  split at h
  · cases h
    exact ⟨by omega, by omega⟩
  · exact within_ofMode? hx h
  · exact within_ofMode? hx h
  · cases h
    exact ⟨hx, hn⟩
  · cases h
    exact ⟨hx, hn⟩
  · cases h

end RowEdit

/-- The rows that a mode blanks as a whole, the cursor being in row `y`. -/
def modeBlanks (y mode i : Nat) : Prop := mode = 0 ∧ y < i ∨ mode = 1 ∧ i < y ∨ mode = 2

def blanksRow (y : Nat) (ps : List (List Nat)) (action : Char) (i : Nat) : Prop :=
  action = 'J' ∧ modeBlanks y (param ps 0 0) i

namespace Terminal

/-- A terminal before and after a sequence that edits the cursor's row and blanks other rows, and
whose edit of the row is local. Only one sequence clears the scrollback. -/
structure EditedLocally (t t' : Terminal) (ps : List (List Nat)) (action : Char) (blank : Cell) : Prop where
  history : t'.history = if action = 'J' ∧ param ps 0 0 = 3 then [] else t.history
  blanked : ∀ i, blanksRow t.grid.cursorY ps action i →
    t'.visible[i]? = t.visible[i]?.map (·.eraseAll blank)
  others : ∀ i, ¬blanksRow t.grid.cursorY ps action i → i ≠ t.grid.cursorY →
    t'.visible[i]? = t.visible[i]?
  row : ¬blanksRow t.grid.cursorY ps action t.grid.cursorY →
    ∃ l l', t.visible[t.grid.cursorY]? = some l ∧ t'.visible[t.grid.cursorY]? = some l' ∧
      match RowEdit.ofCsi? t.grid.cols t.grid.cursorX ps action with
      | some e => e.Local t.grid.cols blank l l'
      | none => l' = l

def SparesRow (t : Terminal) (ps : List (List Nat)) (action : Char) : Prop :=
  ∀ l e, t.visible[t.grid.cursorY]? = some l →
    RowEdit.ofCsi? t.grid.cols t.grid.cursorX ps action = some e → e.Spares t.grid.cols l

end Terminal

/-! ### The display -/

namespace Sheet

theorem getElem?_eraseCells (v : Sheet) (y : Nat) {start stop : Nat} (hlt : start < min stop v.cols)
    (blank : Cell) (i : Nat) : (v.eraseCells y start stop blank).lines[i]? =
      if i = y then v.lines[i]?.map (·.erase v.cols start (min stop v.cols) blank) else v.lines[i]? := by
  unfold eraseCells
  rw [if_pos hlt, modifyLine, List.getElem?_modify]
  split_ifs <;> simp_all

end Sheet

namespace Display

variable {d : Display} {ps : List (List Nat)} {action : Char}

instance (y mode : Nat) : DecidablePred (modeBlanks y mode) :=
  fun _ => inferInstanceAs (Decidable (_ ∨ _))

instance (y : Nat) (ps : List (List Nat)) (action : Char) : DecidablePred (blanksRow y ps action) :=
  fun _ => inferInstanceAs (Decidable (_ ∧ _))

/-- The line in row `i` once rows were blanked and the cursor's row was edited. -/
def editLine (d : Display) (row : Option RowEdit) (blanked : Nat → Prop) [DecidablePred blanked]
    (blank : Cell) (i : Nat) (l : Line) : Line :=
  if blanked i then l.eraseAll blank
  else if i = d.sheet.cursorY then
    match row with
    | some e => e.apply d.sheet.cols blank l
    | none => l
  else l

section

variable {row : Option RowEdit} {blanked : Nat → Prop} [DecidablePred blanked]

theorem editLine_blankCell (d : Display) (blank : Cell) (i : Nat) :
    d.blankCell.2.editLine row blanked blank i = d.editLine row blanked blank i := by
  obtain ⟨-, -, hy, hcols⟩ := blankCell_lines d
  unfold editLine
  rw [hy, hcols]

theorem editLine_false (d : Display) (e : RowEdit) (blank : Cell) (i : Nat) (xs : Option Line) :
    xs.map (d.editLine (some e) (fun _ => False) blank i) =
      if d.sheet.cursorY = i then xs.map (e.apply d.sheet.cols blank) else xs := by
  unfold editLine
  simp only [if_false, eq_comm]
  split_ifs <;> simp

end

theorem lines_eraseCells (d : Display) {start stop : Nat} (hlt : start < min stop d.sheet.cols)
    (blank : Cell) (i : Nat) :
    (d.sheet.eraseCells d.sheet.cursorY start stop blank).lines[i]? = d.sheet.lines[i]?.map
      (d.editLine (some (.erase start (min stop d.sheet.cols))) (fun _ => False) blank i) := by
  rw [Sheet.getElem?_eraseCells _ _ hlt, editLine_false]
  simp only [eq_comm]
  rfl

theorem lines_modifyLine (d : Display) (e : RowEdit) (blank : Cell) (i : Nat) :
    (d.sheet.modifyLine d.sheet.cursorY (e.apply d.sheet.cols blank)).lines[i]? =
      d.sheet.lines[i]?.map (d.editLine (some e) (fun _ => False) blank i) := by
  rw [Sheet.modifyLine, List.getElem?_modify, editLine_false]
  split_ifs <;> simp

/-- What the modes do to the sheet, once the blank is interned. -/
def eraseLineWith (v : Sheet) (blank : Cell) : Nat → Sheet
  | 0 => v.eraseCells v.cursorY v.cursorX v.cols blank
  | 1 => v.eraseCells v.cursorY 0 (v.cursorX + 1) blank
  | 2 => v.eraseCells v.cursorY 0 v.cols blank
  | _ => v

def eraseDisplayWith (v : Sheet) (blank : Cell) : Nat → Sheet
  | 0 => (v.eraseCells v.cursorY v.cursorX v.cols blank).eraseRows (v.cursorY + 1) v.rows blank
  | 1 => (v.eraseRows 0 v.cursorY blank).eraseCells v.cursorY 0 (v.cursorX + 1) blank
  | 2 => v.eraseRows 0 v.rows blank
  | 3 => v.clearScrollback
  | _ => v

theorem csiEraseLine_sheet (d : Display) (mode : Nat) :
    (d.csiEraseLine mode).sheet = eraseLineWith d.blankCell.2.sheet d.blankCell.1 mode := by
  rcases mode with _ | _ | _ | mode <;> rfl

theorem csiEraseDisplay_sheet (d : Display) (mode : Nat) :
    (d.csiEraseDisplay mode).sheet = eraseDisplayWith d.blankCell.2.sheet d.blankCell.1 mode := by
  rcases mode with _ | _ | _ | _ | mode <;> rfl

theorem csiEraseCharacter_sheet (d : Display) (n : Nat) : (d.csiEraseCharacter n).sheet =
    d.blankCell.2.sheet.eraseCells d.blankCell.2.sheet.cursorY d.blankCell.2.sheet.cursorX
      (d.blankCell.2.sheet.cursorX + n) d.blankCell.1 := rfl

theorem csiDeleteCharacter_sheet (d : Display) (n : Nat) : (d.csiDeleteCharacter n).sheet =
    d.blankCell.2.sheet.modifyLine d.blankCell.2.sheet.cursorY
      ((RowEdit.delete d.blankCell.2.sheet.cursorX n).apply d.blankCell.2.sheet.cols d.blankCell.1) := rfl

theorem csiInsertCharacter_sheet (d : Display) (n : Nat) : (d.csiInsertCharacter n).sheet =
    d.blankCell.2.sheet.modifyLine d.blankCell.2.sheet.cursorY
      ((RowEdit.insert d.blankCell.2.sheet.cursorX n).apply d.blankCell.2.sheet.cols d.blankCell.1) := rfl

theorem lines_eraseLineWith (h : d.Ok) (blank : Cell) (mode i : Nat) :
    (eraseLineWith d.sheet blank mode).lines[i]? = d.sheet.lines[i]?.map (d.editLine
      (RowEdit.ofMode? d.sheet.cols d.sheet.cursorX mode) (fun _ => False) blank i) := by
  have hx : d.sheet.cursorX < d.sheet.cols := h.fits.cursorX
  rcases mode with _ | _ | _ | mode
  · refine (lines_eraseCells d (by omega) _ i).trans ?_
    rw [Nat.min_self]
    rfl
  · refine (lines_eraseCells d (by omega) _ i).trans ?_
    rw [min_eq_left hx]
    rfl
  · refine (lines_eraseCells d (by omega) _ i).trans ?_
    rw [Nat.min_self]
    rfl
  · unfold editLine RowEdit.ofMode?
    simp only [if_false, ite_self]
    exact Option.map_id'.symm

theorem lines_eraseDisplayWith (h : d.Ok) (blank : Cell) (mode i : Nat) :
    (eraseDisplayWith d.sheet blank mode).lines[i]? = d.sheet.lines[i]?.map (d.editLine
      (RowEdit.ofMode? d.sheet.cols d.sheet.cursorX mode) (modeBlanks d.sheet.cursorY mode) blank i) := by
  have hx : d.sheet.cursorX < d.sheet.cols := h.fits.cursorX
  have hrows : d.sheet.lines.length = d.sheet.rows := h.fits.rows
  have hin {l : Line} (hl : d.sheet.lines[i]? = some l) : i < d.sheet.rows :=
    hrows ▸ (List.getElem?_eq_some_iff.mp hl).1
  rcases mode with _ | _ | _ | _ | mode
  · change ((Sheet.eraseCells _ _ _ _ _).eraseRows _ _ _).lines[i]? = _
    rw [getElem?_eraseRows, lines_eraseCells d (by omega), Nat.min_self]
    cases hl : d.sheet.lines[i]? with
    | none => simp
    | some l =>
        have hi := hin hl
        unfold editLine modeBlanks
        grind [RowEdit.ofMode?]
  · have hcols : (d.sheet.eraseRows 0 d.sheet.cursorY blank).cols = d.sheet.cols :=
      congrArg Frame.cols (Sheet.toFrame_eraseRows ..)
    change (Sheet.eraseCells (Sheet.eraseRows _ _ _ _) _ _ _ _).lines[i]? = _
    rw [Sheet.getElem?_eraseCells _ _ (by omega), getElem?_eraseRows, hcols, min_eq_left hx]
    cases hl : d.sheet.lines[i]? with
    | none => simp
    | some l =>
        have hi := hin hl
        unfold editLine modeBlanks
        grind [RowEdit.ofMode?, RowEdit.apply]
  · change (Sheet.eraseRows _ _ _ _).lines[i]? = _
    rw [getElem?_eraseRows]
    cases hl : d.sheet.lines[i]? with
    | none => simp
    | some l =>
        have hi := hin hl
        unfold editLine modeBlanks
        grind
  · unfold editLine RowEdit.ofMode? modeBlanks
    simp [eraseDisplayWith, Sheet.clearScrollback]
  · unfold editLine RowEdit.ofMode? modeBlanks
    simp [eraseDisplayWith]

theorem ofCsi?_cases {d : Display} {ps : List (List Nat)} {action : Char} (blank : Cell) (i : Nat)
    (hJ : action ≠ 'J') (xs : Option Line) :
    xs.map (d.editLine (RowEdit.ofCsi? d.sheet.cols d.sheet.cursorX ps action)
      (blanksRow d.sheet.cursorY ps action) blank i) =
    xs.map (d.editLine (RowEdit.ofCsi? d.sheet.cols d.sheet.cursorX ps action) (fun _ => False) blank i) := by
  unfold editLine blanksRow
  simp only [hJ, false_and]

theorem lines_csi (charWidth : Char → Nat) (h : d.Ok) (ps : List (List Nat)) (intermediates : Bytes)
    (haction : action ∈ ['X', 'K', 'J', 'P', '@']) (i : Nat) :
    (d.csiDispatch charWidth ps intermediates action).sheet.lines[i]? = d.sheet.lines[i]?.map
      (d.editLine (RowEdit.ofCsi? d.sheet.cols d.sheet.cursorX ps action)
        (blanksRow d.sheet.cursorY ps action) d.blankCell.1 i) := by
  obtain ⟨hlines, hx, hy, hcols⟩ := blankCell_lines d
  have h₁ : d.blankCell.2.Ok := (effect_blankCell h).ok
  have hn := RowEdit.one_le_param ps 0
  have hx' : d.blankCell.2.sheet.cursorX < d.blankCell.2.sheet.cols := h₁.fits.cursorX
  rw [← hlines, ← editLine_blankCell, ← hx, ← hy, ← hcols]
  simp only [List.mem_cons, List.not_mem_nil, or_false] at haction
  rcases haction with rfl | rfl | rfl | rfl | rfl
  · rw [ofCsi?_cases _ _ (by decide)]
    change (d.csiEraseCharacter (param ps 0 1)).sheet.lines[i]? = _
    rw [csiEraseCharacter_sheet]
    refine lines_eraseCells d.blankCell.2 ?_ _ i
    exact lt_min (Nat.lt_add_of_pos_right hn) hx'
  · rw [ofCsi?_cases _ _ (by decide)]
    change (d.csiEraseLine (param ps 0 0)).sheet.lines[i]? = _
    rw [csiEraseLine_sheet]
    exact lines_eraseLineWith h₁ _ _ i
  · change (d.csiEraseDisplay (param ps 0 0)).sheet.lines[i]? = _
    rw [csiEraseDisplay_sheet, lines_eraseDisplayWith h₁]
    unfold editLine blanksRow
    simp only [true_and]
    rfl
  · rw [ofCsi?_cases _ _ (by decide)]
    change (d.csiDeleteCharacter (param ps 0 1)).sheet.lines[i]? = _
    rw [csiDeleteCharacter_sheet]
    exact lines_modifyLine d.blankCell.2 _ _ i
  · rw [ofCsi?_cases _ _ (by decide)]
    change (d.csiInsertCharacter (param ps 0 1)).sheet.lines[i]? = _
    rw [csiInsertCharacter_sheet]
    exact lines_modifyLine d.blankCell.2 _ _ i

theorem history_blankCell (d : Display) : d.blankCell.2.sheet.history = d.sheet.history := by
  obtain ⟨table, htable⟩ := internWithGc_eq d { bg := d.state.currentStyle.bg }
  have hblank : d.blankCell.2 = d.withFrame fun f => { f with styleTable := table } := htable
  rw [hblank]
  rfl

theorem history_eraseCells (v : Sheet) (y start stop : Nat) (blank : Cell) :
    (v.eraseCells y start stop blank).history = v.history := by
  unfold Sheet.eraseCells
  split_ifs <;> rfl

theorem history_eraseRows (v : Sheet) (startY stopY : Nat) (blank : Cell) :
    (v.eraseRows startY stopY blank).history = v.history := by
  unfold Sheet.eraseRows
  induction List.range' startY (stopY - startY) generalizing v with
  | nil => rfl
  | cons y ys ih => exact (ih _).trans rfl

theorem history_csi (charWidth : Char → Nat) (d : Display) (ps : List (List Nat)) (intermediates : Bytes)
    (haction : action ∈ ['X', 'K', 'J', 'P', '@']) :
    (d.csiDispatch charWidth ps intermediates action).sheet.history =
      if action = 'J' ∧ param ps 0 0 = 3 then [] else d.sheet.history := by
  have hblank := history_blankCell d
  simp only [List.mem_cons, List.not_mem_nil, or_false] at haction
  rcases haction with rfl | rfl | rfl | rfl | rfl
  · exact (history_eraseCells ..).trans hblank
  · change (d.csiEraseLine (param ps 0 0)).sheet.history = d.sheet.history
    rw [csiEraseLine_sheet]
    unfold eraseLineWith
    split <;> simp [history_eraseCells, hblank]
  · change (d.csiEraseDisplay (param ps 0 0)).sheet.history = _
    rw [csiEraseDisplay_sheet]
    unfold eraseDisplayWith
    split <;> simp_all [history_eraseCells, history_eraseRows, Sheet.clearScrollback]
  · exact hblank
  · exact hblank

end Display

/-! ### Runs -/

namespace Terminal

variable {charWidth : Char → Nat} {t t' : Terminal} {d d' : Display} {ps : List (List Nat)} {action : Char}

theorem visible_csi (h : t.Shows d) (hd : d.Ok) (h' : t'.Shows d') (hd' : d'.Ok)
    (haction : action ∈ ['X', 'K', 'J', 'P', '@']) {intermediates : Bytes}
    (hedit : d' = d.csiDispatch charWidth ps intermediates action) (i : Nat) :
    t'.visible[i]? = t.visible[i]?.map (d.editLine
      (RowEdit.ofCsi? t.grid.cols t.grid.cursorX ps action) (blanksRow t.grid.cursorY ps action)
      d.blankCell.1 i) := by
  have hx : t.grid.cursorX = d.sheet.cursorX := congrArg Frame.cursorX h.frame
  have hy : t.grid.cursorY = d.sheet.cursorY := congrArg Frame.cursorY h.frame
  rw [visible_eq h hd, visible_eq h' hd', hedit, Display.lines_csi charWidth hd ps intermediates haction,
    hx, hy, h.grid.cols_eq]

theorem cursorLine (h : t.Shows d) (hd : d.Ok) : ∃ l, t.visible[t.grid.cursorY]? = some l ∧
    l ∈ d.sheet.lines ∧ l.len = t.grid.cols := by
  have hy : t.grid.cursorY = d.sheet.cursorY := congrArg Frame.cursorY h.frame
  have hlt : d.sheet.cursorY < d.sheet.lines.length := hd.fits.lt_length hd.fits.cursorY
  have hmem := List.getElem_mem hlt
  refine ⟨d.sheet.lines[d.sheet.cursorY], ?_, hmem, ?_⟩
  · rw [visible_eq h hd, hy, List.getElem?_eq_getElem hlt]
  · rw [h.grid.cols_eq]
    exact hd.fits.cols _ hmem

theorem SparesRow.editedLocally (hspares : t.SparesRow ps action) (h : t.Marked d) (h' : t'.Shows d')
    (hd' : d'.Ok) (haction : action ∈ ['X', 'K', 'J', 'P', '@']) {intermediates : Bytes}
    (hedit : d' = d.csiDispatch charWidth ps intermediates action) :
    t.EditedLocally t' ps action d.blankCell.1 := by
  have hx : t.grid.cursorX = d.sheet.cursorX := congrArg Frame.cursorX h.shows.frame
  have hy : t.grid.cursorY = d.sheet.cursorY := congrArg Frame.cursorY h.shows.frame
  have hcols := h.shows.grid.cols_eq
  have hvisible := visible_csi h.shows h.ok h' hd' haction hedit
  constructor
  · rw [history_eq h', history_eq h.shows, hedit]
    exact Display.history_csi charWidth d ps intermediates haction
  · intro i hblanked
    rw [hvisible]
    unfold Display.editLine
    simp only [if_pos hblanked]
  · intro i hblanked hother
    rw [hvisible]
    unfold Display.editLine
    simp only [if_neg hblanked, if_neg (hy ▸ hother)]
    exact Option.map_id'
  · intro hblanked
    obtain ⟨l, hl, hmem, hlen⟩ := cursorLine h.shows h.ok
    refine ⟨l, _, hl, by rw [hvisible, hl]; rfl, ?_⟩
    unfold Display.editLine
    rw [if_neg hblanked, if_pos hy, ← hcols]
    split
    · next e he =>
      refine (hspares l e hl he).local_apply (RowEdit.within_ofCsi? ?_ he) hlen ?_
        (h.marks.lines l hmem) rfl
      · rw [hx, hcols]
        exact h.ok.fits.cursorX
      · rw [hcols]
        exact d.sheet.size.cols_lt
    · rfl

theorem spares_ofMode? {cols x : Nat} {e : RowEdit} {l : Line} (h : RowEdit.ofMode? cols x 2 = some e) :
    e.Spares cols l := by
  cases h
  refine ⟨⟨fun hpos => absurd hpos (lt_irrefl 0), fun hlt => absurd hlt (lt_irrefl cols),
    fun hlt => absurd hlt (lt_irrefl cols), fun hlt => absurd hlt (lt_irrefl cols)⟩, ?_⟩
  intro c hc hsome
  exact absurd (if_pos ⟨Nat.zero_le c, hc⟩) hsome

theorem EditedLocally.sparesRow {fill : Cell} (hlocal : t.EditedLocally t' ps action fill) (h : t.Marked d)
    (h' : t'.Shows d') (hd' : d'.Ok) (haction : action ∈ ['X', 'K', 'J', 'P', '@'])
    {intermediates : Bytes} (hedit : d' = d.csiDispatch charWidth ps intermediates action) :
    t.SparesRow ps action := by
  have hx : t.grid.cursorX = d.sheet.cursorX := congrArg Frame.cursorX h.shows.frame
  have hy : t.grid.cursorY = d.sheet.cursorY := congrArg Frame.cursorY h.shows.frame
  have hcols := h.shows.grid.cols_eq
  intro l e hl he
  by_cases hblanked : blanksRow t.grid.cursorY ps action t.grid.cursorY
  · obtain ⟨rfl, hmode⟩ := hblanked
    have htwo : param ps 0 0 = 2 := by
      unfold modeBlanks at hmode
      omega
    change RowEdit.ofMode? _ _ (param ps 0 0) = some e at he
    rw [htwo] at he
    exact spares_ofMode? he
  · obtain ⟨l₁, l', hl₁, hl', hrow⟩ := hlocal.row hblanked
    obtain rfl : l = l₁ := Option.some_inj.mp (hl.symm.trans hl₁)
    obtain ⟨l₂, hl₂, -, hlen⟩ := cursorLine h.shows h.ok
    obtain rfl : l = l₂ := Option.some_inj.mp (hl.symm.trans hl₂)
    rw [he] at hrow
    rw [visible_csi h.shows h.ok h' hd' haction hedit, hl] at hl'
    unfold Display.editLine at hl'
    rw [Option.map_some, if_neg hblanked, if_pos hy, he, ← hcols] at hl'
    obtain rfl := Option.some_inj.mp hl'
    refine RowEdit.spares_of_local (RowEdit.within_ofCsi? ?_ he) hlen ?_ rfl hrow
    · rw [hx, hcols]
      exact h.ok.fits.cursorX
    · rw [hcols]
      exact d.sheet.size.cols_lt

end Terminal

namespace Screen

/-- **Edits are local** exactly where the row is spared: erasing, deleting and inserting characters, in
every state that a run reaches, on both terminals. -/
theorem editedLocally_iff (charWidth : Char → Nat) (cols rows : UInt16) (limit : Nat)
    (events : List Event) (s : Screen)
    (hrun : (Screen.new cols rows limit).run? charWidth events = some s) (t : Terminal)
    (ht : t = s.terminal ∨ t = s.logical) (ps : List (List Nat)) (intermediates : Bytes) (action : Char)
    (haction : action ∈ ['X', 'K', 'J', 'P', '@']) :
    Returns (t.csiDispatch? charWidth ps intermediates action) fun t' =>
      (∃ styleId, t.EditedLocally t' ps action { styleId }) ↔ t.SparesRow ps action := by
  have hmarked : ∃ d, t.Marked d := by
    obtain ⟨hterminal, hlogical⟩ := run?_terminals hrun
    rcases ht with rfl | rfl
    · exact (Terminal.marked_new cols rows limit false).run? hterminal
    · exact (Terminal.marked_new cols rows limit true).run? hlogical
  obtain ⟨d, hd⟩ := hmarked
  refine (hd.shows.csiDispatch? charWidth hd.ok ps intermediates action).mono fun t' h' => ?_
  have hok := (Display.effect_csiDispatch charWidth hd.ok ps intermediates action).ok
  constructor
  · rintro ⟨styleId, hlocal⟩
    exact hlocal.sparesRow hd h' hok haction rfl
  · intro hspares
    exact ⟨_, hspares.editedLocally hd h' hok haction rfl⟩

/-- A narrow character and an ideograph, and the cursor on the first. -/
def narrowThenWide : List Event :=
  [.callback (.print 'a'), .callback (.print '漢'), .callback (.csiDispatch [] [] 'H')]

theorem editedLocally_iff_narrowThenWide :
    ∃ s, (Screen.new 4 2 5).run? ideographWidth narrowThenWide = some s ∧
      Returns (s.terminal.csiDispatch? ideographWidth [[1]] [] 'X') fun t' =>
        (∃ styleId, s.terminal.EditedLocally t' [[1]] 'X' { styleId }) ↔
          s.terminal.SparesRow [[1]] 'X' :=
  ⟨_, rfl, editedLocally_iff ideographWidth 4 2 5 narrowThenWide _ rfl _ (.inl rfl) [[1]] [] 'X'
    (by decide)⟩

/-- Erasing the first character blanks the second, which is wholly outside. -/
theorem erase_blanks_next : ∃ s t', (Screen.new 4 2 5).run? ideographWidth narrowThenWide = some s ∧
    s.terminal.csiDispatch? ideographWidth [[1]] [] 'X' = some t' ∧
    ¬∃ styleId, s.terminal.EditedLocally t' [[1]] 'X' { styleId } := by
  refine ⟨_, _, rfl, rfl, ?_⟩
  rintro ⟨styleId, hlocal⟩
  obtain ⟨l, l', hl, hl', hrow⟩ := hlocal.row fun h => absurd h.1 (by decide)
  have hcells : EditsLocally 4 (erasing 0 1) { styleId } l.cellAt l'.cellAt := hrow.cells
  -- the ideograph is not torn apart, and is no longer there
  have hfirst : (l.cellAt 0).width = 1 := by
    have := congrArg (Option.map fun l => (l.cellAt 0).width) hl
    exact (Option.some_inj.mp (Eq.trans (by decide) this)).symm
  have hwide : (l.cellAt 1).width = 2 := by
    have := congrArg (Option.map fun l => (l.cellAt 1).width) hl
    exact (Option.some_inj.mp (Eq.trans (by decide) this)).symm
  have hgone : (l'.cellAt 1).width = 1 := by
    have := congrArg (Option.map fun l => (l.cellAt 1).width) hl'
    exact (Option.some_inj.mp (Eq.trans (by decide) this)).symm
  have hwhole : ¬Torn (erasing 0 1) l.cellAt 1 := by
    rw [torn_erasing Nat.one_pos (.inr le_rfl)]
    rintro (⟨h, -⟩ | ⟨-, h, -⟩)
    · cases h
    · rw [hfirst] at h
      cases h
  have hkept := hcells.kept 1 (by decide) 1 rfl hwhole
  rw [hkept, hwide] at hgone
  cases hgone

end Screen

end QuorumDispatch.Screen
