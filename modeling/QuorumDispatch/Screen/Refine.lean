import QuorumDispatch.Screen.Geometry
import Mathlib.Data.List.InsertIdx
import Mathlib.Tactic.Common

/-!
The grid performs what the sheet says.

`Grid.Shows g v` is the relation: the rows of the grid, without their provenance, are
the history and then the lines of the sheet. Provenance operations do not disturb
it; every other operation returns, provided the geometry is in order, and its result
shows the result of the total operation on the sheet.
-/

namespace QuorumDispatch.Screen

open Lib

structure Grid.Shows (g : Grid) (v : Sheet) : Prop where
  frame : g.toFrame = v.toFrame
  cells : g.cells.map Row.toLine = v.history ++ v.lines
  boundary : g.scrollbackLen = v.history.length

namespace Sheet

variable {v : Sheet}

theorem modifyLine_modifyLine (v : Sheet) (y : Nat) (f f' : Line → Line) :
    (v.modifyLine y f).modifyLine y f' = v.modifyLine y (f' ∘ f) := by
  simp [modifyLine, List.modify_modify_eq]

theorem modifyLine_congr {y : Nat} {f f' : Line → Line} (hy : y < v.lines.length)
    (h : f v.lines[y] = f' v.lines[y]) : v.modifyLine y f = v.modifyLine y f' := by
  simp [modifyLine, List.modify_eq_set_getElem?, hy, h]

theorem modifyLine_eq_self {y : Nat} {f : Line → Line} (hy : y < v.lines.length)
    (h : f v.lines[y] = v.lines[y]) : v.modifyLine y f = v := by
  simp [modifyLine, List.modify_eq_set_getElem?, hy, h]

theorem length_removeLine {y : Nat} (hy : y < v.lines.length) :
    (v.removeLine y).lines.length = v.lines.length - 1 :=
  List.length_eraseIdx_of_lt hy

end Sheet

namespace Grid

variable {g : Grid} {v : Sheet}

/-! ### Provenance -/

theorem Shows.mono {g' : Grid} (h : g.Shows v) (hf : g'.toFrame = g.toFrame)
    (hc : g'.cells.map Row.toLine = g.cells.map Row.toLine)
    (hb : g'.scrollbackLen = g.scrollbackLen) : g'.Shows v where
  frame := hf.trans h.frame
  cells := hc.trans h.cells
  boundary := hb.trans h.boundary

theorem map_toLine_modify {rows : List Row} {i : Nat} {f : Row → Row}
    (hf : ∀ row, (f row).toLine = row.toLine) :
    (rows.modify i f).map Row.toLine = rows.map Row.toLine := by
  apply List.ext_getElem?
  intro k
  simp only [List.getElem?_map, List.getElem?_modify]
  cases rows[k]? with
  | none => rfl
  | some row => by_cases hk : i = k <;> simp [hk, hf]

theorem map_toLine_map {rows : List Row} {f : Row → Row}
    (hf : ∀ row, (f row).toLine = row.toLine) :
    (rows.map f).map Row.toLine = rows.map Row.toLine := by
  rw [List.map_map]
  exact List.map_congr_left fun row _ => hf row

theorem Shows.setOutgoing (h : g.Shows v) (i : Nat) (e : Option WrapEdge) :
    (g.setOutgoing i e).Shows v :=
  h.mono rfl (map_toLine_modify fun _ => rfl) rfl

theorem Shows.invalidateProvenanceKeepRaw (h : g.Shows v) :
    g.invalidateProvenanceKeepRaw.Shows v :=
  h.mono rfl rfl rfl

/-- The tokens of the stream are no part of what is shown. -/
theorem Shows.tokens (h : g.Shows v) (pendingWrap : Option PendingWrap)
    (sequentialEdge : Option SequentialEdge) (inAltDomain : Bool) :
    { g with pendingWrap, sequentialEdge, inAltDomain }.Shows v :=
  h.mono rfl rfl rfl

theorem Shows.severIds (h : g.Shows v) (doomed : List Nat) : (g.severIds doomed).Shows v := by
  refine h.mono rfl (map_toLine_map fun row => ?_) rfl
  split <;> rfl

theorem Shows.validateAllEdges (h : g.Shows v) : g.validateAllEdges.Shows v := by
  refine h.mono rfl ?_ rfl
  apply List.ext_getElem?
  intro k
  simp only [Grid.validateAllEdges, List.getElem?_map, List.getElem?_mapIdx]
  cases g.cells[k]? with
  | none => rfl
  | some row => by_cases hk : row.outgoing.all (g.edgeValid k row) = true <;> simp [hk]

theorem Shows.cutIncoming (h : g.Shows v) (i : Nat) (id : Option Nat) (b : Bool) :
    (g.cutIncoming i id b).Shows v := by
  unfold Grid.cutIncoming
  split
  · exact h
  · dsimp only
    split
    · exact h.setOutgoing _ _
    · exact h

theorem Shows.separateRows (h : g.Shows v) (i : Nat) : (g.separateRows i).Shows v := by
  unfold Grid.separateRows
  split
  · split
    · exact (h.setOutgoing (i - 1) none).mono rfl rfl rfl
    · exact h
  · exact h

theorem Shows.advanceRevision (h : g.Shows v) (i : Nat) (pendingWrap : Option PendingWrap) :
    { g with cells := g.cells.modify i Row.advanceRevision, pendingWrap }.Shows v :=
  h.mono rfl (map_toLine_modify Row.toLine_advanceRevision) rfl

theorem Shows.withFrame (h : g.Shows v) (f : Frame → Frame) :
    (g.withFrame f).Shows (v.withFrame f) where
  frame := congrArg f h.frame
  cells := h.cells
  boundary := h.boundary

theorem Shows.setWrapPending (h : g.Shows v) (b : Bool) :
    (g.setWrapPending b).Shows (v.withFrame fun f => { f with wrapPending := b }) := by
  unfold Grid.setWrapPending
  cases b with
  | false => exact (h.withFrame fun f => { f with wrapPending := false }).mono rfl rfl rfl
  | true => exact h.withFrame fun f => { f with wrapPending := true }

theorem Shows.moveCursor (h : g.Shows v) (f : Frame → Frame) :
    (g.moveCursor f).Shows (v.withFrame f) :=
  (h.withFrame f).mono rfl rfl rfl

/-! ### Rows and cells -/

theorem Shows.length (h : g.Shows v) : g.cells.length = v.history.length + v.lines.length := by
  simpa using congrArg List.length h.cells

theorem Shows.visibleLen? (h : g.Shows v) : g.visibleLen? = some v.lines.length := by
  have hlen := h.length
  have hb := h.boundary
  unfold Grid.visibleLen?
  rw [if_pos (by omega)]
  congr 1
  omega

theorem Shows.visibleRow? (h : g.Shows v) {y : Nat} (hy : y < v.lines.length) :
    ∃ row, g.visibleRow? y = some row ∧ row.toLine = v.lines[y] := by
  have hget : (g.cells.map Row.toLine)[g.scrollbackLen + y]? = some v.lines[y] := by
    rw [h.cells, h.boundary, List.getElem?_append_right (by omega)]
    simp [hy]
  obtain ⟨row, hrow, hline⟩ := by simpa using hget
  exact ⟨row, hrow, hline⟩

theorem Shows.set (h : g.Shows v) {y : Nat} {row : Row} {f : Line → Line}
    (hy : y < v.lines.length) (hrow : row.toLine = f v.lines[y]) :
    { g with cells := g.cells.set (g.scrollbackLen + y) row }.Shows (v.modifyLine y f) where
  frame := h.frame
  boundary := h.boundary
  cells := by
    show (g.cells.set (g.scrollbackLen + y) row).map Row.toLine =
      v.history ++ v.lines.modify y f
    rw [List.map_set, h.cells, h.boundary, List.set_append_right _ _ (by omega),
      Nat.add_sub_cancel_left, hrow, List.modify_eq_set_getElem? ]
    simp [hy]

theorem Shows.modifyRow? (h : g.Shows v) {y : Nat} {f : Row → Option Row} {F : Line → Line}
    (hy : y < v.lines.length)
    (hf : ∀ row : Row, row.toLine = v.lines[y] →
      Returns (f row) fun row' => row'.toLine = F v.lines[y]) :
    Returns (g.modifyRow? y f) (·.Shows (v.modifyLine y F)) := by
  obtain ⟨row, hrow, hline⟩ := h.visibleRow? hy
  unfold Grid.modifyRow?
  refine .bind_eq hrow (.bind (hf row hline) fun row' hrow' => ?_)
  exact .pure (h.set hy hrow')

/-- Only the line in place matters. -/
theorem Shows.congr {y : Nat} {f f' : Line → Line} (h : g.Shows (v.modifyLine y f))
    (hy : y < v.lines.length) (hf : f v.lines[y] = f' v.lines[y]) : g.Shows (v.modifyLine y f') := by
  rw [← Sheet.modifyLine_congr hy hf]
  exact h

theorem Shows.setAt? (h : g.Shows v) {x y : Nat} (hy : y < v.lines.length)
    (hx : x < v.lines[y].len) (cell : Cell) :
    Returns (g.setAt? x y cell) (·.Shows (v.modifyLine y (·.set x cell))) := by
  refine h.modifyRow? hy fun row hrow => ?_
  have hlen : x < row.len := by rw [hrow]; exact hx
  unfold Row.set?
  rw [if_pos hlen]
  exact .pure (by rw [Row.toLine_withLine, hrow])

theorem Shows.modifyLine? (h : g.Shows v) {y : Nat} (hy : y < v.lines.length)
    (f : Line → Line) :
    Returns (g.modifyRow? y fun row => some (row.withLine f)) (·.Shows (v.modifyLine y f)) :=
  h.modifyRow? hy fun row hrow => .pure (by rw [Row.toLine_withLine, hrow])

theorem Shows.beforeContentWrite? (h : g.Shows v) (hv : v.Fits) (y : Nat) (a b : Bool) :
    Returns (g.beforeContentWrite? y a b) (·.Shows v) := by
  unfold Grid.beforeContentWrite?
  split_ifs with hy
  · exact .pure h
  · have hrows : g.rows = v.rows := congrArg Frame.rows h.frame
    obtain ⟨row, hrow, -⟩ := h.visibleRow? (hv.lt_length (by omega : y < v.rows))
    refine .bind_eq hrow (.pure ?_)
    have hcut := (h.setOutgoing (g.scrollbackLen + y) none).cutIncoming
      (g.scrollbackLen + y) row.rowId a
    split_ifs
    · exact (hcut.advanceRevision _ _).invalidateProvenanceKeepRaw
    · exact hcut.advanceRevision _ _

theorem Shows.cols_eq (h : g.Shows v) : g.cols = v.cols := congrArg Frame.cols h.frame

theorem Shows.rows_eq (h : g.Shows v) : g.rows = v.rows := congrArg Frame.rows h.frame

theorem Shows.prepareAddressedWrite? (h : g.Shows v) (hv : v.Fits) (y : Nat) :
    Returns (g.prepareAddressedWrite? y) (·.Shows v) := by
  refine .bind (h.beforeContentWrite? hv y false false) fun g' hg' => ?_
  exact .pure (hg'.mono rfl rfl rfl)

theorem Shows.fixupWideCharAt? (h : g.Shows v) (hv : v.Fits) {x y : Nat} (hx : x < v.cols)
    (hy : y < v.rows) :
    Returns (g.fixupWideCharAt? x y)
      (·.Shows (v.modifyLine y (·.fixupWideCharAt v.cols x))) := by
  have hyl := hv.lt_length hy
  have hlen := hv.len hyl
  have hcols := h.cols_eq
  obtain ⟨row, hrow, hline⟩ := h.visibleRow? hyl
  obtain ⟨cell, hcell, hwidth⟩ : ∃ cell, row.get? x = some cell ∧
      v.lines[y].widthAt x = cell.width := by
    have hx' : x < v.lines[y].cells.length := by rw [← hlen] at hx; exact hx
    refine ⟨v.lines[y].cells[x], ?_, ?_⟩
    · simp [Row.get?, hline, hx']
    · simp [Line.widthAt, hx']
  unfold Grid.fixupWideCharAt?
  rw [if_neg (by rw [h.rows_eq, hcols]; omega)]
  refine .bind_eq hrow (.bind_eq hcell ?_)
  split_ifs with h2 hnext h0
  · refine .bind (h.setAt? hyl (x := x + 1) (by omega) {}) fun g' hg' => ?_
    refine (hg'.setAt? (x := x) (by simpa using hyl)
      (by simp [Sheet.modifyLine]; omega) {}).mono ?_
    intro g'' hg''
    rw [Sheet.modifyLine_modifyLine] at hg''
    refine hg''.congr hyl ?_
    simp [Line.fixupWideCharAt, hwidth, h2, ← hcols, hnext]
  · refine .bind_eq rfl ((h.setAt? hyl (x := x) (by omega) {}).mono fun g'' hg'' => ?_)
    refine hg''.congr hyl ?_
    simp [Line.fixupWideCharAt, hwidth, h2, ← hcols, hnext]
  · refine .bind (h.setAt? hyl (x := x - 1) (by omega) {}) fun g' hg' => ?_
    refine (hg'.setAt? (x := x) (by simpa using hyl)
      (by simp [Sheet.modifyLine]; omega) {}).mono ?_
    intro g'' hg''
    rw [Sheet.modifyLine_modifyLine] at hg''
    refine hg''.congr hyl ?_
    simp [Line.fixupWideCharAt, hwidth, h0]
  · refine .pure ?_
    rw [Sheet.modifyLine_eq_self hyl]
    · exact h
    · simp only [Line.fixupWideCharAt, hwidth, if_neg h2, if_neg h0]

/-- A cell operation on a line that keeps its width, behind others. -/
theorem Shows.then_fits (hv : v.Fits) {y : Nat} {f : Line → Line}
    (hf : ∀ line, (f line).len = line.len) : (v.modifyLine y f).Fits :=
  hv.modifyLine y fun line hline => (hf line).trans hline

theorem Shows.setCellRaw? (h : g.Shows v) (hv : v.Fits) {x y : Nat} (hx : x < v.cols)
    (hy : y < v.rows) (cell : Cell) :
    Returns (g.setCellRaw? x y cell) (·.Shows (v.putCell x y cell)) := by
  have hyl := hv.lt_length hy
  refine .bind (h.fixupWideCharAt? hv hx hy) fun g₁ h₁ => ?_
  have v₁ := then_fits (y := y) hv fun line => line.len_fixupWideCharAt v.cols x
  refine .bind (h₁.setAt? (v₁.lt_length hy) (by rw [v₁.len]; exact hx) cell) fun g₂ h₂ => ?_
  rw [Sheet.modifyLine_modifyLine] at h₂
  refine .bind (h₂.modifyLine? (by simpa using hyl) _) fun g₃ h₃ => ?_
  rw [Sheet.modifyLine_modifyLine] at h₃
  have hcols : g₃.cols = v.cols := h₃.cols_eq
  split_ifs with hwide
  · have v₃ := then_fits (y := y) hv (f := (·.clearCombining x) ∘ (·.set x cell) ∘
      (·.fixupWideCharAt v.cols x)) fun line => by simp
    have hx₁ : x + 1 < v.cols := hcols ▸ hwide.2
    refine .bind (h₃.fixupWideCharAt? v₃ (x := x + 1) hx₁ hy) fun g₄ h₄ => ?_
    have v₄ := then_fits (y := y) v₃ fun line => line.len_fixupWideCharAt v.cols (x + 1)
    refine .bind (h₄.setAt? (v₄.lt_length hy)
      (hx₁.trans_eq (v₄.len (v₄.lt_length hy)).symm) _) fun g₅ h₅ => ?_
    rw [Sheet.modifyLine_modifyLine, Sheet.modifyLine_modifyLine] at h₅
    refine (h₅.modifyLine? (by simpa using hyl) _).mono fun g₆ h₆ => ?_
    rw [Sheet.modifyLine_modifyLine] at h₆
    refine h₆.congr hyl ?_
    simp [Line.put, hwide.1, hx₁]
  · refine .pure (h₃.congr hyl ?_)
    rw [hcols] at hwide
    simp [Line.put, hwide]

theorem Shows.setCell? (h : g.Shows v) (hv : v.Fits) {x y : Nat} (hx : x < v.cols)
    (hy : y < v.rows) (forward : Bool) (cell : Cell) :
    Returns (g.setCell? forward x y cell) (·.Shows (v.putCell x y cell)) := by
  unfold Grid.setCell?
  rw [if_neg (by rw [h.rows_eq, h.cols_eq]; omega)]
  exact .bind (h.beforeContentWrite? hv y forward false) fun g' hg' =>
    hg'.setCellRaw? hv hx hy cell

theorem Shows.setWideEarlyPadding? (h : g.Shows v) (hv : v.Fits) {x y : Nat} (hx : x < v.cols)
    (hy : y < v.rows) (cell : Cell) :
    Returns (g.setWideEarlyPadding? x y cell) (·.Shows (v.modifyLine y (·.set x cell))) := by
  unfold Grid.setWideEarlyPadding?
  rw [if_neg (by rw [h.rows_eq, h.cols_eq]; omega)]
  exact .bind (h.beforeContentWrite? hv y true false) fun g' hg' =>
    hg'.setAt? (hv.lt_length hy) (by rw [hv.len]; exact hx) cell

theorem Shows.pushPrintCombining? (h : g.Shows v) (hv : v.Fits) {y : Nat} (hy : y < v.rows)
    (x : Nat) (mark : Char) :
    Returns (g.pushPrintCombining? y x mark)
      (·.Shows (v.modifyLine y (·.pushCombining x mark))) :=
  .bind (h.beforeContentWrite? hv y true true) fun _ hg' => hg'.modifyLine? (hv.lt_length hy) _

theorem Shows.setAll? (h : g.Shows v) (hv : v.Fits) {y : Nat} (hy : y < v.rows) (xs : List Nat)
    (hxs : ∀ x ∈ xs, x < v.cols) (blank : Cell) :
    Returns (xs.foldlM (fun g x => g.setAt? x y blank) g)
      (·.Shows (v.modifyLine y fun l => xs.foldl (fun l x => l.set x blank) l)) := by
  induction xs generalizing g v with
  | nil =>
      refine .pure ?_
      rw [Sheet.modifyLine_eq_self (hv.lt_length hy) rfl]
      exact h
  | cons x xs ih =>
      have hx := hxs x (by simp)
      refine .bind (h.setAt? (hv.lt_length hy) (by rw [hv.len]; exact hx) blank) fun g' hg' => ?_
      have hv' := then_fits (y := y) hv fun line => line.len_set x blank
      refine (ih hg' hv' hy fun z hz => hxs z (by simp [hz])).mono fun g'' hg'' => ?_
      rw [Sheet.modifyLine_modifyLine] at hg''
      exact hg''

theorem Shows.eraseCells? (h : g.Shows v) (hv : v.Fits) {y : Nat} (hy : y < v.rows)
    {start : Nat} (hstart : start < v.cols) (stop : Nat) (blank : Cell) :
    Returns (g.eraseCells? y start stop blank) (·.Shows (v.eraseCells y start stop blank)) := by
  have hyl := hv.lt_length hy
  have hmin : min start v.cols = start := by omega
  unfold Grid.eraseCells? Sheet.eraseCells
  rw [h.rows_eq, h.cols_eq, if_neg (by omega)]
  dsimp only
  rw [hmin]
  split_ifs with hle hlt
  · omega
  · exact .pure h
  · have hstop : min stop v.cols ≤ v.cols := by omega
    generalize min stop v.cols = stop at *
    refine .bind (h.beforeContentWrite? hv y false false) fun g₁ h₁ => ?_
    refine .bind (h₁.fixupWideCharAt? hv hstart hy) fun g₂ h₂ => ?_
    have v₂ := then_fits (y := y) hv fun line => line.len_fixupWideCharAt v.cols start
    -- What follows the fixups, whichever of them were made.
    have hrest : ∀ g₃ : Grid, ∀ f : Line → Line, g₃.Shows (v.modifyLine y f) →
        (∀ line, (f line).len = line.len) →
        Returns (do
          let g ← (List.range' start (stop - start)).foldlM (fun g i => g.setAt? i y blank) g₃
          g.modifyRow? y fun row => some (row.withLine (·.clearCombiningRange start stop)))
          (·.Shows (v.modifyLine y ((·.clearCombiningRange start stop) ∘
            (fun l => (List.range' start (stop - start)).foldl (fun l x => l.set x blank) l) ∘ f))) := by
      intro g₃ f h₃ hf
      refine .bind (h₃.setAll? (then_fits hv hf) hy _ (fun x hx => ?_) blank) fun g₄ h₄ => ?_
      · show x < v.cols
        rw [List.mem_range'_1] at hx
        omega
      · rw [Sheet.modifyLine_modifyLine] at h₄
        have h₅ := h₄.modifyLine? (by simpa using hyl)
          (·.clearCombiningRange start stop)
        rwa [Sheet.modifyLine_modifyLine] at h₅
    rw [show g₂.cols = v.cols from h₂.cols_eq]
    split_ifs with hs
    · refine .bind (h₂.fixupWideCharAt? v₂ hs hy) fun g₃ h₃ => ?_
      rw [Sheet.modifyLine_modifyLine] at h₃
      refine (hrest g₃ _ h₃ fun line => by simp).mono fun g₄ h₄ => h₄.congr hyl ?_
      simp [Line.erase, hs]
    · refine .bind_eq rfl ((hrest g₂ _ h₂ fun line => by simp).mono fun g₄ h₄ => h₄.congr hyl ?_)
      simp [Line.erase, hs]
  · omega


theorem Shows.eraseRows? (h : g.Shows v) (hv : v.Fits) {startY stopY : Nat}
    (hstart : startY ≤ v.rows) (hstop : stopY ≤ v.rows) (blank : Cell) :
    Returns (g.eraseRows? startY stopY blank) (·.Shows (v.eraseRows startY stopY blank)) := by
  unfold Grid.eraseRows? Sheet.eraseRows
  dsimp only
  rw [h.rows_eq, Nat.min_eq_left hstart, Nat.min_eq_left hstop]
  refine (Returns.foldlM_sim (R := fun g w => g.Shows w ∧ w.Fits ∧ w.rows = v.rows)
    ⟨h, hv, rfl⟩ ?_).mono fun g' hg' => hg'.1
  rintro g w y hy ⟨hg, hw, hrows⟩
  have hyl : y < w.rows := by
    rw [List.mem_range'_1] at hy
    omega
  refine .bind (hg.beforeContentWrite? hw y false false) fun g' hg' => ?_
  refine (hg'.modifyLine? (hw.lt_length hyl) _).mono fun g'' hg'' => ⟨hg'', ?_, hrows⟩
  exact then_fits hw fun line => line.len_eraseAll blank

/-! ### Rows -/

theorem Shows.freshRow (h : g.Shows v) (cells : List Cell) : (g.freshRow cells).2.Shows v :=
  h.mono rfl rfl rfl

theorem toLine_newBlankRow (h : g.Shows v) (fill : Cell) :
    (g.newBlankRow fill).1.toLine = v.blankLine fill := by
  simp [newBlankRow, Grid.freshRow, Sheet.blankLine, h.cols_eq]

theorem insertIdx_append_right {α : Type} (xs ys : List α) (i : Nat) (a : α) :
    (xs ++ ys).insertIdx (xs.length + i) a = xs ++ ys.insertIdx i a := by
  induction xs with
  | nil => simp
  | cons x xs ih => simpa [Nat.succ_add] using ih

theorem Shows.insertVisibleRow? (h : g.Shows v) {y : Nat} (hy : y ≤ v.lines.length) (row : Row) :
    Returns (g.insertVisibleRow? y row) (·.Shows (v.insertLine y row.toLine)) := by
  have hlen := h.length
  have hb := h.boundary
  unfold Grid.insertVisibleRow?
  dsimp only
  rw [if_pos (by omega)]
  have hs := h.separateRows (g.scrollbackLen + y)
  refine .pure ⟨hs.frame, ?_, hs.boundary⟩
  rw [List.map_insertIdx, hs.cells, hb, insertIdx_append_right]
  rfl

/-- Without the provenance, a row is just erased. -/
theorem removeRowAt_eq (g : Grid) (i : Nat) :
    (g.removeRowAt i).toFrame = g.toFrame ∧ (g.removeRowAt i).scrollbackLen = g.scrollbackLen ∧
      (g.removeRowAt i).cells.map Row.toLine = (g.cells.map Row.toLine).eraseIdx i := by
  unfold Grid.removeRowAt
  split
  next hrow =>
      refine ⟨rfl, rfl, (List.eraseIdx_of_length_le ?_).symm⟩
      simpa using hrow
  next row hrow =>
      dsimp only
      split
      · exact ⟨rfl, rfl, (List.eraseIdx_map ..).symm⟩
      · unfold Grid.detachRow
        dsimp only
        split_ifs
        · refine ⟨rfl, rfl, (List.eraseIdx_map ..).symm.trans ?_⟩
          exact congrArg (List.eraseIdx · i) (map_toLine_modify fun _ => rfl)
        · exact ⟨rfl, rfl, (List.eraseIdx_map ..).symm⟩

theorem Shows.removeVisibleRow (h : g.Shows v) (y : Nat) :
    (g.removeVisibleRow y).Shows (v.removeLine y) := by
  obtain ⟨hf, hb, hc⟩ := removeRowAt_eq g (g.scrollbackLen + y)
  refine ⟨hf.trans h.frame, ?_, hb.trans h.boundary⟩
  refine hc.trans ?_
  rw [h.cells, h.boundary, List.eraseIdx_append_of_length_le (by omega), Nat.add_sub_cancel_left]
  rfl

theorem dropFront_eq (g : Grid) :
    g.dropFront.toFrame = g.toFrame ∧ g.dropFront.scrollbackLen = g.scrollbackLen ∧
      g.dropFront.cells.map Row.toLine = (g.cells.map Row.toLine).tail := by
  unfold Grid.dropFront
  split
  next id _ =>
      refine ⟨rfl, rfl, ?_⟩
      rw [List.map_tail]
      refine congrArg List.tail (map_toLine_map fun row => ?_)
      split <;> rfl
  next => exact ⟨rfl, rfl, List.map_tail⟩

theorem Shows.captureTopRow (h : g.Shows v) (hv : v.lines ≠ []) {evict : Grid → Grid}
    (hev : ∀ g : Grid, (evict g).toFrame = g.toFrame ∧
      (evict g).scrollbackLen = g.scrollbackLen ∧
      (evict g).cells.map Row.toLine = (g.cells.map Row.toLine).tail) :
    (g.captureTopRow evict).Shows v.capture := by
  obtain ⟨line, lines, hlines⟩ := List.exists_cons_of_ne_nil hv
  have hb := h.boundary
  have hlimit : g.scrollbackLimit = v.scrollbackLimit := congrArg Frame.scrollbackLimit h.frame
  have hcells : g.cells.map Row.toLine = (v.history ++ [line]) ++ lines := by
    rw [h.cells, hlines, List.append_assoc]
    rfl
  have hrow : (g.visibleRow? 0).toList.map Row.toLine = [line] := by
    have hget : (g.cells.map Row.toLine)[g.scrollbackLen]? = some line := by
      rw [hcells, hb]
      simp
    rw [List.getElem?_map] at hget
    obtain ⟨row, hrow, rfl⟩ := Option.map_eq_some_iff.mp hget
    rw [show g.visibleRow? 0 = some row from hrow]
    rfl
  have hframe : ({ g.toFrame with captured := g.captured ++ [line] } : Frame) =
      { v.toFrame with captured := v.captured ++ [line] } := by
    rw [h.frame]
  unfold Grid.captureTopRow Sheet.capture
  dsimp only
  rw [hlines, hrow]
  by_cases hfull : v.history.length + 1 > v.scrollbackLimit
  · rw [if_pos (by omega : g.scrollbackLen + 1 > g.scrollbackLimit), if_pos hfull]
    obtain ⟨ef, eb, ec⟩ := hev { g with
      scrollbackLen := g.scrollbackLen + 1, captured := g.captured ++ [line] }
    refine ⟨?_, ?_, ?_⟩
    · exact congrArg (fun f : Frame => { f with pendingStart := f.pendingStart - 1 })
        (ef.trans hframe)
    · refine ec.trans ?_
      show (g.cells.map Row.toLine).tail = _
      rw [hcells, List.tail_append_of_ne_nil (by simp)]
      rfl
    · show Grid.scrollbackLen _ - 1 = _
      rw [eb, hb]
      simp
  · rw [if_neg (by omega : ¬ g.scrollbackLen + 1 > g.scrollbackLimit), if_neg hfull]
    refine ⟨hframe, ?_, ?_⟩
    · simpa using hcells
    · simp [hb]

theorem evict_removeRowAt (g : Grid) : (g.removeRowAt 0).toFrame = g.toFrame ∧
    (g.removeRowAt 0).scrollbackLen = g.scrollbackLen ∧
    (g.removeRowAt 0).cells.map Row.toLine = (g.cells.map Row.toLine).tail := by
  have := removeRowAt_eq g 0
  rwa [List.eraseIdx_zero] at this

theorem Shows.insertBlank? (h : g.Shows v) {y : Nat} (hy : y ≤ v.lines.length) (fill : Cell) :
    Returns ((g.newBlankRow fill).2.insertVisibleRow? y (g.newBlankRow fill).1)
      (·.Shows (v.insertLine y (v.blankLine fill))) := by
  have hins := (h.freshRow (List.replicate g.cols fill)).insertVisibleRow? hy
    (g.newBlankRow fill).1
  rwa [toLine_newBlankRow h] at hins

theorem Shows.pushBlankRow (h : g.Shows v) (fill : Cell) :
    ((g.newBlankRow fill).2.pushRow (g.newBlankRow fill).1).Shows
      (v.insertLine v.lines.length (v.blankLine fill)) := by
  have hfresh := h.freshRow (List.replicate g.cols fill)
  refine ⟨hfresh.frame, ?_, hfresh.boundary⟩
  show (g.cells ++ [(g.newBlankRow fill).1]).map Row.toLine = v.history ++ _
  rw [List.map_append, h.cells, Sheet.insertLine, List.insertIdx_length_self, List.append_assoc,
    ← toLine_newBlankRow h]
  rfl

theorem Shows.scrollUp? (h : g.Shows v) (hv : v.Fits) (inAlt : Bool) (fill : Cell) :
    Returns (g.scrollUp? inAlt fill) (·.Shows (v.scrollUp inAlt fill)) := by
  have hrows := hv.rows
  have hbottom := hv.bottom
  have htop := hv.top
  unfold Grid.scrollUp? Sheet.scrollUp
  refine .bind_eq h.visibleLen? ?_
  rw [show g.scrollTop = v.scrollTop from congrArg Frame.scrollTop h.frame,
    show g.scrollbackLimit = v.scrollbackLimit from congrArg Frame.scrollbackLimit h.frame,
    show g.scrollBottom = v.scrollBottom from congrArg Frame.scrollBottom h.frame]
  dsimp only
  by_cases hcap : inAlt = false ∧ v.scrollTop = 0 ∧ 0 < v.scrollbackLimit
  · rw [if_pos hcap, if_pos hcap]
    have hc := h.captureTopRow (by rw [← List.length_pos_iff]; omega) evict_removeRowAt
    have hlen : v.capture.lines.length = v.lines.length - 1 := by simp
    have hblank : v.capture.blankLine fill = v.blankLine fill := by
      unfold Sheet.blankLine
      rw [v.capture_toFrame]
      rfl
    have hbot : (g.captureTopRow (·.removeRowAt 0)).scrollBottom = v.scrollBottom :=
      (congrArg Frame.scrollBottom hc.frame).trans (by rw [v.capture_toFrame])
    refine .bind_eq (a := ()) (if_pos (by omega)) ?_
    show Returns (if (g.captureTopRow (·.removeRowAt 0)).scrollBottom ≥ _ then _ else
      Grid.insertVisibleRow? _ (g.captureTopRow (·.removeRowAt 0)).scrollBottom _) _
    rw [hbot, ← hblank]
    split_ifs with hpush
    · have hend : v.scrollBottom = v.capture.lines.length := by omega
      rw [hend]
      exact .pure (hc.pushBlankRow fill)
    · exact hc.insertBlank? (by omega) fill
  · rw [if_neg hcap, if_neg hcap, if_pos ⟨htop, by omega⟩]
    have hr := h.removeVisibleRow v.scrollTop
    have hlen := Sheet.length_removeLine (v := v) (y := v.scrollTop) (by omega)
    split_ifs with hwhole
    · rw [hwhole.1] at hr hlen ⊢
      have hcount : (g.removeVisibleRow 0).visibleRowCount = v.scrollBottom := by
        rw [Grid.visibleRowCount, hr.length, hr.boundary]
        omega
      show Returns (Grid.insertVisibleRow? _ (g.removeVisibleRow 0).visibleRowCount _) _
      rw [hcount]
      exact hr.insertBlank? (by omega) fill
    · have hbot : (g.removeVisibleRow v.scrollTop).scrollBottom = v.scrollBottom :=
        congrArg Frame.scrollBottom hr.frame
      show Returns (Grid.insertVisibleRow? _ (g.removeVisibleRow v.scrollTop).scrollBottom _) _
      rw [hbot]
      exact hr.insertBlank? (by omega) fill

theorem Shows.scrollDown? (h : g.Shows v) (hv : v.Fits) (fill : Cell) :
    Returns (g.scrollDown? fill) (·.Shows (v.scrollDown fill)) := by
  have hrows := hv.rows
  have hbottom := hv.bottom
  have htop := hv.top
  unfold Grid.scrollDown? Sheet.scrollDown
  refine .bind_eq h.visibleLen? ?_
  rw [show g.scrollTop = v.scrollTop from congrArg Frame.scrollTop h.frame,
    show g.scrollBottom = v.scrollBottom from congrArg Frame.scrollBottom h.frame,
    if_pos ⟨htop, by omega⟩]
  have hr := h.removeVisibleRow v.scrollBottom
  have hlen := Sheet.length_removeLine (v := v) (y := v.scrollBottom) (by omega)
  have htop' : (g.removeVisibleRow v.scrollBottom).scrollTop = v.scrollTop :=
    congrArg Frame.scrollTop hr.frame
  show Returns (Grid.insertVisibleRow? _ (g.removeVisibleRow v.scrollBottom).scrollTop _) _
  rw [htop']
  exact hr.insertBlank? (by omega) fill

theorem Shows.clearScrollback? (h : g.Shows v) :
    Returns g.clearScrollback? (·.Shows v.clearScrollback) := by
  have hs := h.severIds (g.scrollbackRows.filterMap Row.rowId)
  have hlen := hs.length
  have hb := hs.boundary
  unfold Grid.clearScrollback?
  dsimp only
  refine .bind_eq (a := ()) (if_pos (by omega)) (.pure ⟨?_, ?_, rfl⟩)
  · exact congrArg (fun f : Frame => { f with pendingStart := 0 }) hs.frame
  · show (List.drop _ (Grid.cells _)).map Row.toLine = [] ++ v.lines
    rw [List.map_drop, hs.cells, hb, List.drop_left]
    rfl

/-! ### All visible rows at once -/

theorem Shows.drainVisible? (h : g.Shows v) :
    Returns g.drainVisible? fun r =>
      r.1.map Row.toLine = v.lines ∧ r.2.Shows { v with lines := [] } := by
  have hlen := h.length
  have hb := h.boundary
  unfold Grid.drainVisible?
  refine .bind_eq (a := ()) (if_pos (by omega)) (.pure ⟨?_, h.frame, ?_, hb⟩)
  · rw [List.map_drop, h.cells, hb, List.drop_left]
  · show (g.cells.take g.scrollbackLen).map Row.toLine = v.history ++ []
    rw [List.map_take, h.cells, hb, List.take_left, List.append_nil]

theorem Shows.pushBlank (h : g.Shows v) :
    g.pushBlank.Shows { v with lines := v.lines ++ [.new v.cols] } := by
  refine ⟨h.frame, ?_, h.boundary⟩
  show (g.cells ++ [Row.ofCells (List.replicate g.cols {}) g.nextRowId]).map Row.toLine = _
  rw [List.map_append, h.cells, List.append_assoc, h.cols_eq]
  rfl

theorem Shows.iterate_pushBlank (h : g.Shows v) (n : Nat) :
    (Grid.pushBlank^[n] g).Shows { v with lines := v.lines ++ List.replicate n (.new v.cols) } := by
  induction n generalizing g v with
  | zero => simpa using h
  | succ n ih =>
      rw [Function.iterate_succ_apply]
      have := ih h.pushBlank
      simpa [List.replicate_succ, Frame.cols] using this

theorem Shows.popRow (h : g.Shows v) (hv : v.lines ≠ []) :
    g.popRow.Shows { v with lines := v.lines.dropLast } := by
  have hmap : (g.cells.dropLast).map Row.toLine = v.history ++ v.lines.dropLast := by
    rw [List.map_dropLast, h.cells, List.dropLast_append_of_ne_nil hv]
  unfold Grid.popRow
  split
  next id _ =>
      have hs := h.severIds [id]
      refine ⟨hs.frame, ?_, hs.boundary⟩
      rw [List.map_dropLast, hs.cells, List.dropLast_append_of_ne_nil hv]
  next => exact ⟨h.frame, hmap, h.boundary⟩

theorem Shows.iterate_popRow (h : g.Shows v) {n : Nat} (hn : n ≤ v.lines.length) :
    (Grid.popRow^[n] g).Shows { v with lines := v.lines.take (v.lines.length - n) } := by
  induction n generalizing g v with
  | zero => simpa using h
  | succ n ih =>
      rw [Function.iterate_succ_apply]
      have hpop := h.popRow (by rw [← List.length_pos_iff]; omega)
      have := ih hpop (by simp; omega)
      rw [List.length_dropLast, List.dropLast_eq_take, List.take_take] at this
      rwa [show min (v.lines.length - 1 - n) (v.lines.length - 1) = v.lines.length - (n + 1) by
        omega] at this

/-- Popping and pushing leaves exactly the rows of the frame. -/
theorem Shows.fitVisible (h : g.Shows v) : (g.fitVisible v.lines.length).Shows v.fitRows := by
  have hpop := h.iterate_popRow (n := v.lines.length - v.rows) (by omega)
  have hpush := hpop.iterate_pushBlank (v.rows - v.lines.length)
  have htake : v.lines.take (v.lines.length - (v.lines.length - v.rows)) = v.lines.take v.rows := by
    rcases Nat.le_total v.lines.length v.rows with hle | hle
    · rw [List.take_of_length_le (by omega), List.take_of_length_le hle]
    · congr 1
      omega
  unfold Grid.fitVisible
  dsimp only
  rw [h.rows_eq, show (Grid.popRow^[_] g).rows = v.rows from hpop.rows_eq]
  rw [htake] at hpush
  exact hpush

theorem Shows.adjustVisibleToFit (h : g.Shows v) : g.adjustVisibleToFit.Shows v.fitRows := by
  have hcount : g.visibleRowCount = v.lines.length := by
    rw [Grid.visibleRowCount, h.length, h.boundary]
    omega
  unfold Grid.adjustVisibleToFit
  rw [hcount]
  exact h.fitVisible.validateAllEdges

theorem getElem?_foldl_modify {α : Type} (f : α → α) (xs : List α) (a n k : Nat) :
    ((List.range' a n).foldl (fun xs i => xs.modify i f) xs)[k]? =
      xs[k]?.map (if a ≤ k ∧ k < a + n then f else id) := by
  induction n generalizing a xs with
  | zero => simp [show ¬ (a ≤ k ∧ k < a) by omega]
  | succ n ih =>
      rw [List.range'_succ, List.foldl_cons, ih, List.getElem?_modify]
      rcases Nat.lt_trichotomy k a with hk | rfl | hk
      · simp [show ¬ a ≤ k by omega, show ¬ a + 1 ≤ k by omega, show ¬ a = k by omega]
      · simp [show ¬ k + 1 ≤ k by omega]
      · simp only [show a ≤ k by omega, show a + 1 ≤ k by omega, show ¬ a = k by omega,
          show a + 1 + n = a + (n + 1) by omega, if_false]
        simp

theorem foldl_modify_range {α : Type} (f : α → α) (xs : List α) :
    (List.range xs.length).foldl (fun xs i => xs.modify i f) xs = xs.map f := by
  apply List.ext_getElem?
  intro k
  rw [List.range_eq_range', getElem?_foldl_modify, List.getElem?_map]
  rcases Nat.lt_or_ge k xs.length with hk | hk
  · simp [hk]
  · simp [hk]

/-! ### Resizing -/

theorem Shows.restoreScrollback (h : g.Shows v) {count : Nat} (hc : count ≤ v.history.length) :
    (g.restoreScrollback count).Shows (v.restoreScrollback count) := by
  have hb := h.boundary
  refine ⟨?_, ?_, ?_⟩
  · show ({ g.toFrame with pendingStart := _ } : Frame) = _
    rw [h.frame, hb]
    rfl
  · show g.cells.map Row.toLine = v.history.take _ ++ (v.history.drop _ ++ v.lines)
    rw [h.cells, ← List.append_assoc, List.take_append_drop]
  · show g.scrollbackLen - count = (v.history.take _).length
    rw [hb, List.length_take]
    omega

theorem blankRow_eq (h : g.Shows v) (row : Row) : g.blankRow row = v.blankRow row.toLine := by
  have hshadow : g.logicalShadow = v.logicalShadow := congrArg Frame.logicalShadow h.frame
  unfold Grid.blankRow Sheet.blankRow
  rw [hshadow]

theorem Shows.chopBlankBottomRows? (h : g.Shows v) (max : Nat) :
    Returns (g.chopBlankBottomRows? max) fun r =>
      r.1 = (v.chopBlankBottomRows max).1 ∧ r.2.Shows (v.chopBlankBottomRows max).2 := by
  induction max generalizing g v with
  | zero => exact .pure ⟨rfl, h⟩
  | succ max ih =>
      have hy : g.cursorY = v.cursorY := congrArg Frame.cursorY h.frame
      unfold Grid.chopBlankBottomRows? Grid.chopOne? Sheet.chopBlankBottomRows
      rw [h.visibleLen?, hy]
      by_cases hlen : v.cursorY + 1 < v.lines.length
      · have hne : v.lines ≠ [] := by rw [← List.length_pos_iff]; omega
        obtain ⟨row, hrow, hline⟩ : ∃ row, g.cells.getLast? = some row ∧
            v.lines.getLast? = some row.toLine := by
          have hlast : (g.cells.map Row.toLine).getLast? = v.lines.getLast? := by
            rw [h.cells, List.getLast?_append_of_ne_nil _ hne]
          rw [List.getLast?_map] at hlast
          obtain ⟨line, hline⟩ := Option.ne_none_iff_exists'.mp
            (mt List.getLast?_eq_none_iff.mp hne)
          rw [hline] at hlast
          obtain ⟨row, hrow, rfl⟩ := Option.map_eq_some_iff.mp hlast
          exact ⟨row, hrow, hline⟩
        have hblank := blankRow_eq h row
        simp only [hrow, hline, hlen, Option.all_some, true_and, Option.bind_eq_bind,
          Option.bind_some, show ¬ (v.lines.length = 0 ∨ v.lines.length - 1 ≤ v.cursorY) by omega,
          if_false, hblank]
        by_cases hb : v.blankRow row.toLine = true
        · simp only [hb, if_true]
          refine .bind_eq rfl (.bind (ih (h.popRow hne)) fun r hr => .pure ⟨?_, hr.2⟩)
          exact congrArg (· + 1) hr.1
        · simp only [hb]
          exact .pure ⟨rfl, h⟩
      · simp only [hlen, Option.bind_eq_bind, Option.bind_some, false_and, if_false,
          show v.lines.length = 0 ∨ v.lines.length - 1 ≤ v.cursorY by omega, if_true]
        exact .pure ⟨rfl, h⟩

theorem Shows.pushTopRow? (h : g.Shows v) (hv : v.lines ≠ []) :
    Returns g.pushTopRow? (·.Shows v.capture) := by
  unfold Grid.pushTopRow?
  refine .bind_eq h.visibleLen? ?_
  rw [if_neg (by simpa using hv)]
  exact .pure (h.captureTopRow hv dropFront_eq)

theorem Shows.fitCols (h : g.Shows v) {cols : Nat} (hc : cols = v.cols) :
    { g with cells := g.cells.take g.scrollbackLen ++
      (g.cells.drop g.scrollbackLen).map (resizeRow cols) }.Shows v.fitCols := by
  refine ⟨h.frame, ?_, h.boundary⟩
  have hrow : ∀ row : Row, (resizeRow cols row).toLine = Sheet.fitLine v.cols row.toLine := by
    intro row
    unfold Grid.resizeRow Sheet.fitLine
    rw [← hc]
    dsimp only
    split_ifs <;> rfl
  show List.map Row.toLine (_ ++ _) = v.history ++ v.lines.map _
  rw [List.map_append, List.map_take, h.cells, h.boundary, List.take_left, List.map_map,
    show Row.toLine ∘ resizeRow cols = Sheet.fitLine v.cols ∘ Row.toLine from funext hrow,
    ← List.map_map, List.map_drop, h.cells, List.drop_left]

theorem Shows.settleWrap (h : g.Shows v) (oldCols : Nat) :
    ∃ keepWrap, (g.settleWrap oldCols).Shows
        (v.withFrame fun f => { f with wrapPending := f.wrapPending && keepWrap }) ∧
      (keepWrap = true → v.logicalShadow = true ∧ oldCols = v.cols) := by
  have hshadow : g.logicalShadow = v.logicalShadow := congrArg Frame.logicalShadow h.frame
  have hdrop : ∀ g' : Grid, g'.toFrame = { g.toFrame with wrapPending := false } →
      g'.cells.map Row.toLine = g.cells.map Row.toLine → g'.scrollbackLen = g.scrollbackLen →
      g'.Shows (v.withFrame fun f => { f with wrapPending := f.wrapPending && false }) := by
    intro g' hf hc hb
    refine ⟨hf.trans ?_, hc.trans h.cells, hb.trans h.boundary⟩
    rw [h.frame]
    simp [Sheet.withFrame]
  by_cases hgeo : oldCols = g.cols
  · have hinv : g.invalidatePendingForGeometry (.liveResize (oldCols != g.cols)) = g := by
      simp [Grid.invalidatePendingForGeometry, hgeo]
    unfold Grid.settleWrap
    dsimp only
    rw [hinv]
    split_ifs with hlegacy hnone
    · exact ⟨false, hdrop _ rfl rfl rfl, by simp⟩
    · have hval := h.validateAllEdges
      exact ⟨false, hdrop _ rfl (hval.cells.trans h.cells.symm) rfl, by simp⟩
    · refine ⟨true, ?_, fun _ => ⟨?_, hgeo.trans h.cols_eq⟩⟩
      · have hval := h.validateAllEdges
        refine ⟨hval.frame.trans ?_, hval.cells, hval.boundary⟩
        simp [Sheet.withFrame]
      · rw [← hshadow]
        simpa using fun hfalse => hlegacy (.inl hfalse)
  · have hne : (oldCols != g.cols) = true := by simpa using hgeo
    refine ⟨false, ?_, by simp⟩
    unfold Grid.settleWrap Grid.invalidatePendingForGeometry
    dsimp only
    rw [hne]
    simp only [if_true]
    rw [if_pos (.inr hgeo)]
    exact hdrop _ rfl rfl rfl

/-- A resized grid shows the resized sheet. Only the logical grid, and only at an equal
width, may keep a deferred wrap. -/
theorem Shows.resize? (h : g.Shows v) (cols rows : UInt16) :
    Returns (g.resize? cols rows) fun g' =>
      ∃ keepWrap, g'.Shows (v.resize (sanitizeDimensions cols rows) keepWrap) ∧
        (keepWrap = true →
          v.logicalShadow = true ∧ v.cols = (sanitizeDimensions cols rows).cols) := by
  have hs := h.withFrame fun f => { f with size := sanitizeDimensions cols rows }
  unfold Grid.resize?
  refine .bind_eq hs.visibleLen? (.pure ?_)
  have hrows := hs.fitVisible
  have hfit := ((hrows.fitCols hrows.cols_eq).validateAllEdges).withFrame (·.clampCursor)
  obtain ⟨keepWrap, hwrap, hkeep⟩ := hfit.settleWrap g.cols
  refine ⟨keepWrap, hwrap.withFrame fun f => f.resetScrollRegion.resetTabStops, ?_⟩
  rw [← h.cols_eq]
  exact hkeep

end Grid

end QuorumDispatch.Screen
