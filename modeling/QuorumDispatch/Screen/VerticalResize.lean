import QuorumDispatch.Screen.HandOff

/-!
Resizing at an equal width. The scrollback with the visible rows is one sequence, and a new height
moves the border between the two: rows only go at the front, beyond the limit of the scrollback, and
at the end, below the cursor.
-/

namespace QuorumDispatch.Screen

open Lib

set_option linter.dupNamespace false

/-- A sequence of rows before and after a resize: scrollback, visible rows and the cursor's row.
`restored` rows of the scrollback are visible again, and have the width of the screen. -/
structure RowsKept (cols limit : Nat) (blank : Line → Prop) (history lines : List Line) (y : Nat)
    (history' lines' : List Line) (y' evicted removed restored added : Nat) : Prop where
  rows : history' ++ lines' =
    (history.take (history.length - restored) ++
      (history.drop (history.length - restored)).map (Sheet.fitLine cols) ++
      lines.take (lines.length - removed)).drop evicted ++ List.replicate added (Line.new cols)
  cursor : history'.length + y' + evicted = history.length + y
  below : y + removed < lines.length
  content : y' = 0 ∨ ∀ line ∈ lines.drop (lines.length - removed), blank line
  limit : evicted = 0 ∨ history'.length = limit
  exhausted : added = 0 ∨ history' = []

namespace Sheet

variable {v : Sheet}

/-! ### The steps -/

theorem resize_lines (v : Sheet) (size : TerminalSize) (keepWrap : Bool) :
    (v.resize size keepWrap).lines =
      (v.lines.take size.rows).map (fitLine size.cols) ++
        List.replicate (size.rows - v.lines.length) (.new size.cols) := by
  change (v.lines.take size.rows ++
    List.replicate (size.rows - v.lines.length) (Line.new size.cols)).map (fitLine size.cols) = _
  rw [List.map_append, List.map_replicate, Display.fitLine_len (Line.len_new size.cols)]

theorem map_fitLine {cols : Nat} {lines : List Line} (h : ∀ line ∈ lines, line.len = cols) :
    lines.map (fitLine cols) = lines :=
  (List.map_congr_left fun line hline => Display.fitLine_len (h line hline)).trans (List.map_id lines)

theorem resize_cursor (v : Sheet) (size : TerminalSize) (keepWrap : Bool) (hx : v.cursorX < size.cols)
    (hy : v.cursorY < size.rows) : (v.resize size keepWrap).cursorX = v.cursorX ∧
      (v.resize size keepWrap).cursorY = v.cursorY :=
  ⟨if_neg (Nat.not_le.mpr hx), if_neg (Nat.not_le.mpr hy)⟩

theorem chopBlankBottomRows_take (v : Sheet) (hy : v.cursorY < v.lines.length) (max : Nat) :
    ∃ chopped ≤ max, v.cursorY + chopped < v.lines.length ∧
      v.chopBlankBottomRows max =
        (chopped, { v with lines := v.lines.take (v.lines.length - chopped) }) ∧
      ∀ line ∈ v.lines.drop (v.lines.length - chopped), v.blankRow line = true := by
  induction max generalizing v with
  | zero => exact ⟨0, Nat.le_refl 0, hy, by simp [chopBlankBottomRows], by simp⟩
  | succ max ih =>
      unfold chopBlankBottomRows
      split_ifs with hchop
      · obtain ⟨hbelow, hblank⟩ := hchop
        obtain hnil | ⟨rest, last, hlast⟩ := List.eq_nil_or_concat' v.lines
        · rw [hnil] at hy
          cases hy
        have hlen : v.lines.length = rest.length + 1 := by rw [hlast, List.length_append]; rfl
        have hdrop : v.lines.dropLast = rest := by rw [hlast, List.dropLast_concat]
        rw [hlast, List.getLast?_concat, Option.all_some] at hblank
        obtain ⟨chopped, hle, hbelow', heq, hall⟩ := ih { v with lines := rest } (by
          change v.cursorY < rest.length
          omega)
        change v.cursorY + chopped < rest.length at hbelow'
        have hend : v.lines.length - (chopped + 1) = rest.length - chopped := by omega
        refine ⟨chopped + 1, Nat.succ_le_succ hle, by omega, ?_, ?_⟩
        · rw [hdrop, heq, hend, hlast, List.take_append_of_le_length (by omega)]
        · rw [hend, hlast, List.drop_append_of_le_length (by omega)]
          exact List.forall_mem_append.mpr ⟨hall, List.forall_mem_singleton.mpr hblank⟩
      · exact ⟨0, Nat.zero_le _, hy, by simp, by simp⟩

/-- Rows that leave the screen at the top join the scrollback, which gives up its first. -/
theorem iterate_capture (hle : v.history.length ≤ v.scrollbackLimit) {n : Nat}
    (hn : n ≤ v.lines.length) :
    ∃ evicted, (capture^[n] v).history ++ (capture^[n] v).lines =
        (v.history ++ v.lines).drop evicted ∧
      (capture^[n] v).history.length + evicted = v.history.length + n ∧
      (capture^[n] v).lines = v.lines.drop n ∧
      (evicted = 0 ∨ (capture^[n] v).history.length = v.scrollbackLimit) := by
  induction n with
  | zero => exact ⟨0, rfl, rfl, rfl, .inl rfl⟩
  | succ n ih =>
      obtain ⟨evicted, hall, hlen, hlines, hlimit⟩ := ih (Nat.le_of_succ_le hn)
      have hkept := Display.kept_iterate_capture v n
      have hhist := hkept.history hle
      have hsame := hkept.limit
      rw [Function.iterate_succ_apply']
      generalize capture^[n] v = w at hall hlen hlines hlimit hhist hsame
      have hlines' : w.capture.lines = v.lines.drop (n + 1) := by
        rw [capture_lines, hlines, List.tail_drop]
      have hone : (w.lines.take 1).length = 1 := by
        rw [hlines, List.length_take, List.length_drop]
        omega
      have hsplit : w.lines.take 1 ++ w.lines.tail = w.lines := by
        rw [← List.drop_one, List.take_append_drop]
      by_cases hfull : w.history.length + 1 > w.scrollbackLimit
      · refine ⟨evicted + 1, ?_, ?_, hlines', .inr ?_⟩
        all_goals rw [capture, if_pos hfull]
        · change (w.history ++ w.lines.take 1).tail ++ w.lines.tail = _
          have hne : w.history ++ w.lines.take 1 ≠ [] :=
            List.ne_nil_of_length_pos (by rw [List.length_append, hone]; omega)
          rw [← List.tail_append_of_ne_nil hne, List.append_assoc, hsplit, hall, List.tail_drop]
        · change (w.history ++ w.lines.take 1).tail.length + (evicted + 1) = _
          rw [List.length_tail, List.length_append, hone]
          omega
        · change (w.history ++ w.lines.take 1).tail.length = _
          rw [List.length_tail, List.length_append, hone]
          omega
      · refine ⟨evicted, ?_, ?_, hlines', ?_⟩
        all_goals rw [capture, if_neg hfull]
        · change (w.history ++ w.lines.take 1) ++ w.lines.tail = _
          rw [List.append_assoc, hsplit, hall]
        · change (w.history ++ w.lines.take 1).length + evicted = _
          rw [List.length_append, hone]
          omega
        · exact .inl (by omega)

theorem iterate_capture_toFrame (v : Sheet) (n : Nat) : ∃ pendingStart captured,
    (capture^[n] v).toFrame = { v.toFrame with pendingStart, captured } := by
  induction n with
  | zero => exact ⟨v.pendingStart, v.captured, rfl⟩
  | succ n ih =>
      obtain ⟨pendingStart, captured, hframe⟩ := ih
      rw [Function.iterate_succ_apply', capture_toFrame, hframe]
      exact ⟨_, _, rfl⟩

/-! ### Growing and shrinking -/

theorem sanitized_rows {cols rows : UInt16} (hpos : 0 < rows.toNat) :
    (sanitizeDimensions cols rows).rows = rows.toNat := Nat.max_eq_left hpos

theorem resizeGrid_grow (hv : v.Fits) {cols rows : UInt16} (keepWrap : Bool)
    (hcols : (sanitizeDimensions cols rows).cols = v.cols) (hgrow : v.rows < rows.toNat) {restored : Nat}
    (hrestored : restored = min (rows.toNat - v.rows) v.history.length) :
    (v.resizeGrid false cols rows keepWrap).history =
        v.history.take (v.history.length - restored) ∧
      (v.resizeGrid false cols rows keepWrap).lines =
        (v.history.drop (v.history.length - restored)).map (fitLine v.cols) ++ v.lines ++
          List.replicate (rows.toNat - v.rows - restored) (.new v.cols) ∧
      (v.resizeGrid false cols rows keepWrap).cursorY = v.cursorY + restored ∧
      (v.resizeGrid false cols rows keepWrap).cursorX = v.cursorX := by
  have hrows : (sanitizeDimensions cols rows).rows = rows.toNat := sanitized_rows (by omega)
  have hlt := rows.toNat_lt
  have hy := hv.cursorY
  have hsat : satAdd v.cursorY (min restored 65535) = v.cursorY + restored := by
    unfold satAdd
    omega
  have heq : v.resizeGrid false cols rows keepWrap =
      (v.growRows rows.toNat).resize (sanitizeDimensions cols rows) keepWrap := by
    unfold resizeGrid
    rw [if_pos ⟨rfl, hgrow⟩]
    dsimp only
    rw [if_neg fun h : false = false ∧ 0 < rows.toNat ∧ rows.toNat < v.rows =>
      Nat.lt_asymm hgrow h.2.2]
  rw [heq]
  have hy' : (v.growRows rows.toNat).cursorY = v.cursorY + restored := by
    rw [← hsat, hrestored]
    rfl
  obtain ⟨hx, hcursor⟩ := resize_cursor (v.growRows rows.toNat)
    (sanitizeDimensions cols rows) keepWrap (hcols ▸ hv.cursorX) (by rw [hy', hrows]; omega)
  refine ⟨by rw [hrestored]; rfl, ?_, hcursor.trans hy', hx⟩
  have hlines : (v.growRows rows.toNat).lines =
      v.history.drop (v.history.length - restored) ++ v.lines := by
    rw [hrestored]
    rfl
  have hlen : (v.history.drop (v.history.length - restored) ++ v.lines).length = restored + v.rows := by
    rw [List.length_append, List.length_drop, hv.rows]
    omega
  rw [resize_lines, hlines, hrows, hcols, hlen, List.take_of_length_le (by omega), List.map_append,
    map_fitLine hv.cols]
  congr 2
  omega

theorem rowsKept_grow (hv : v.Fits) {cols rows : UInt16} (keepWrap : Bool)
    (hcols : (sanitizeDimensions cols rows).cols = v.cols) (hgrow : v.rows < rows.toNat) :
    ∃ restored added,
      RowsKept v.cols v.scrollbackLimit (v.blankRow · = true) v.history v.lines v.cursorY
        (v.resizeGrid false cols rows keepWrap).history
        (v.resizeGrid false cols rows keepWrap).lines
        (v.resizeGrid false cols rows keepWrap).cursorY 0 0 restored added ∧
      (v.resizeGrid false cols rows keepWrap).cursorX = v.cursorX := by
  obtain ⟨restored, hrestored⟩ : ∃ restored, restored = min (rows.toNat - v.rows) v.history.length :=
    ⟨_, rfl⟩
  obtain ⟨hhist, hlines, hy, hx⟩ := resizeGrid_grow hv keepWrap hcols hgrow hrestored
  have hcursor := hv.cursorY
  have hlen := congrArg List.length hhist
  rw [List.length_take] at hlen
  refine ⟨restored, rows.toNat - v.rows - restored, ⟨?_, ?_, ?_, ?_, .inl rfl, ?_⟩, hx⟩
  · rw [hhist, hlines, List.drop_zero, Nat.sub_zero, List.take_length, ← List.append_assoc,
      ← List.append_assoc]
  · omega
  · rw [hv.rows]
    exact hcursor
  · refine .inr fun line hline => ?_
    rw [Nat.sub_zero, List.drop_length] at hline
    cases hline
  · by_cases hall : v.history.length < rows.toNat - v.rows
    · exact .inr (List.eq_nil_of_length_eq_zero (by omega))
    · exact .inl (by omega)

theorem shrinkRows_self (v : Sheet) : v.shrinkRows v.rows = v := by
  rw [shrinkRows, Nat.sub_self]
  rfl

/-- A sheet without its last rows and with its top in the scrollback, before the rows are counted. -/
theorem shrinkRows_spec (hv : v.Fits) (hle : v.history.length ≤ v.scrollbackLimit) (rows : Nat) :
    ∃ chopped push evicted, chopped ≤ v.rows - rows ∧ v.cursorY + chopped < v.rows ∧
      push = min (v.rows - rows - chopped) v.cursorY ∧
      (v.shrinkRows rows).history ++ (v.shrinkRows rows).lines =
        (v.history ++ v.lines.take (v.rows - chopped)).drop evicted ∧
      (v.shrinkRows rows).history.length + evicted = v.history.length + push ∧
      (v.shrinkRows rows).lines = (v.lines.take (v.rows - chopped)).drop push ∧
      (evicted = 0 ∨ (v.shrinkRows rows).history.length = v.scrollbackLimit) ∧
      (v.shrinkRows rows).cursorX = v.cursorX ∧
      (v.shrinkRows rows).cursorY = v.cursorY - push ∧
      ∀ line ∈ v.lines.drop (v.rows - chopped), v.blankRow line = true := by
  obtain ⟨chopped, hchopped, hbelow, heq, hblank⟩ :=
    chopBlankBottomRows_take v (hv.lt_length hv.cursorY) (v.rows - rows)
  rw [hv.rows] at hbelow heq hblank
  have hlen : (v.lines.take (v.rows - chopped)).length = v.rows - chopped := by
    rw [List.length_take, hv.rows]
    omega
  have hpush : min (v.rows - rows - chopped) v.cursorY ≤ (v.lines.take (v.rows - chopped)).length := by
    omega
  obtain ⟨evicted, hall, hcount, hlines, hlimit⟩ :=
    iterate_capture (v := { v with lines := v.lines.take (v.rows - chopped) }) hle hpush
  obtain ⟨pendingStart, captured, hframe⟩ := iterate_capture_toFrame
    { v with lines := v.lines.take (v.rows - chopped) } (min (v.rows - rows - chopped) v.cursorY)
  have hx := congrArg Frame.cursorX hframe
  have hy := congrArg Frame.cursorY hframe
  refine ⟨chopped, _, evicted, hchopped, hbelow, rfl, ?_, ?_, ?_, ?_, ?_, ?_, hblank⟩
  all_goals rw [shrinkRows, heq]
  · exact hall
  · exact hcount
  · exact hlines
  · exact hlimit
  · exact hx
  · exact congrArg (· - _) hy

/-- What is pushed is above the cursor; the rest fits, and fits exactly if the cursor keeps a row
above it. -/
theorem pushed_counts {all rows chopped push y : Nat} (hshrink : rows ≤ all)
    (hchopped : chopped ≤ all - rows) (hpush : push = min (all - rows - chopped) y) :
    push ≤ y ∧ push + rows ≤ all - chopped ∧ (y ≤ push ∨ push + rows = all - chopped) := by
  omega

theorem resizeGrid_shrink (hv : v.Fits) (hle : v.history.length ≤ v.scrollbackLimit)
    {cols rows : UInt16} (keepWrap : Bool) (hpos : 0 < rows.toNat)
    (hcols : (sanitizeDimensions cols rows).cols = v.cols) (hshrink : rows.toNat ≤ v.rows) :
    ∃ evicted removed,
      RowsKept v.cols v.scrollbackLimit (v.blankRow · = true) v.history v.lines v.cursorY
        (v.resizeGrid false cols rows keepWrap).history
        (v.resizeGrid false cols rows keepWrap).lines
        (v.resizeGrid false cols rows keepWrap).cursorY evicted removed 0 0 ∧
      (v.resizeGrid false cols rows keepWrap).cursorX = v.cursorX := by
  have hrows : (sanitizeDimensions cols rows).rows = rows.toNat := sanitized_rows hpos
  have heq : v.resizeGrid false cols rows keepWrap =
      (v.shrinkRows rows.toNat).resize (sanitizeDimensions cols rows) keepWrap := by
    unfold resizeGrid
    rw [if_neg (fun h => absurd h.2 (Nat.not_lt.mpr hshrink))]
    split_ifs with hless
    · rfl
    · have hsame : rows.toNat = v.rows := by
        by_contra hne
        exact hless ⟨rfl, hpos, by omega⟩
      rw [hsame, shrinkRows_self]
  obtain ⟨chopped, push, evicted, hchopped, hbelow, hpush, hall, hcount, hlines, hlimit, hx, hy, hblank⟩ :=
    shrinkRows_spec hv hle rows.toNat
  rw [heq]
  generalize v.shrinkRows rows.toNat = w at hall hcount hlines hlimit hx hy
  -- the rows that stay are pushed or visible
  obtain ⟨habove, hstay, hexact⟩ := pushed_counts hshrink hchopped hpush
  clear hpush
  have hlen : w.lines.length = v.rows - chopped - push := by
    rw [hlines, List.length_drop, List.length_take, hv.rows, Nat.min_eq_left (Nat.sub_le _ _)]
  have hwidths : ∀ line ∈ w.lines, line.len = v.cols := fun line hline => by
    rw [hlines] at hline
    exact hv.cols line (List.mem_of_mem_take (List.mem_of_mem_drop hline))
  have hresized : (w.resize (sanitizeDimensions cols rows) keepWrap).lines = w.lines.take rows.toNat := by
    rw [resize_lines, hrows, hcols, hlen, Nat.sub_eq_zero_of_le (by omega), List.replicate_zero,
      List.append_nil]
    exact map_fitLine fun line hline => hwidths line (List.mem_of_mem_take hline)
  obtain ⟨hx', hy'⟩ := resize_cursor w (sanitizeDimensions cols rows) keepWrap
    (by rw [hx, hcols]; exact hv.cursorX)
    (by rw [hy, hrows]; clear hlimit hcount; omega)
  refine ⟨evicted, v.rows - (push + rows.toNat), ?_, hx'.trans hx⟩
  have hfit : push + rows.toNat ≤ v.rows := hstay.trans (Nat.sub_le _ _)
  have hend : v.lines.length - (v.rows - (push + rows.toNat)) = push + rows.toNat := by
    rw [hv.rows, Nat.sub_sub_self hfit]
  constructor
  · rw [hresized, hend, List.replicate_zero, List.append_nil, Nat.sub_zero, List.take_length,
      List.drop_length, List.map_nil, List.append_nil]
    change w.history ++ w.lines.take rows.toNat = _
    rw [← List.take_length_add_append, hall, List.take_drop]
    have hcut : evicted + (w.history.length + rows.toNat) =
        v.history.length + (push + rows.toNat) := by
      rw [← Nat.add_assoc, ← Nat.add_assoc, Nat.add_comm evicted, hcount]
    rw [hcut, List.take_length_add_append, List.take_take, Nat.min_eq_left hstay]
  · rw [hy', hy]
    change w.history.length + (v.cursorY - push) + evicted = _
    rw [Nat.add_right_comm, hcount, Nat.add_assoc, Nat.add_sub_cancel' habove]
  · rw [hv.rows]
    clear hlimit hcount
    omega
  · rw [hy', hy, hend]
    rcases hexact with htop | hsame
    · exact .inl (Nat.sub_eq_zero_of_le htop)
    · rw [hsame]
      exact .inr hblank
  · exact hlimit
  · exact .inl rfl

/-- Growing back. All that the shrink pushed comes back, and nothing else, if the shrink evicted
nothing and either removed nothing or pushed to an empty scrollback. -/
theorem resizeGrid_growBack {v' : Sheet} {blank : Line → Prop} {removed : Nat} (hv : v.Fits)
    (hv' : v'.Fits) (hkept : RowsKept v.cols v.scrollbackLimit blank v.history v.lines v.cursorY
      v'.history v'.lines v'.cursorY 0 removed 0 0)
    (hempty : removed = 0 ∨ v.history = [])
    (hnew : ∀ line ∈ v.lines.drop (v.lines.length - removed), line = Line.new v.cols)
    {cols rows : UInt16} (keepWrap : Bool) (hcols' : v'.cols = v.cols)
    (hcols : (sanitizeDimensions cols rows).cols = v.cols) (hrows : rows.toNat = v.rows)
    (hless : v'.rows < v.rows) :
    (v'.resizeGrid false cols rows keepWrap).history = v.history ∧
      (v'.resizeGrid false cols rows keepWrap).lines = v.lines ∧
      (v'.resizeGrid false cols rows keepWrap).cursorY = v.cursorY ∧
      (v'.resizeGrid false cols rows keepWrap).cursorX = v'.cursorX := by
  obtain ⟨hhist, hlines, hy, hx⟩ := resizeGrid_grow hv' keepWrap (hcols.trans hcols'.symm)
    (by rw [hrows]; exact hless) rfl
  have hall := hkept.rows
  rw [List.replicate_zero, List.append_nil, List.drop_zero, Nat.sub_zero, List.take_length,
    List.drop_length, List.map_nil, List.append_nil] at hall
  have hbelow := hkept.below
  have hlen := congrArg List.length hall
  rw [List.length_append, List.length_append, List.length_take, hv'.rows] at hlen
  rw [hv.rows] at hbelow hlen hnew hall
  have hcursor := hkept.cursor
  -- what comes back is what is there beyond the scrollback of before
  have hnil : removed = 0 ∨ v.history.length = 0 := hempty.imp_right fun h => by rw [h]; rfl
  have hrestored : v'.history.length - min (rows.toNat - v'.rows) v'.history.length =
      v.history.length := by omega
  rw [hrestored] at hhist hlines
  have hle : v.history.length ≤ v'.history.length := by omega
  have hback : v'.history.drop v.history.length ++ v'.lines = v.lines.take (v.rows - removed) := by
    rw [← List.drop_append_of_le_length hle, hall, List.drop_left]
  have hwidths : ∀ line ∈ v'.history.drop v.history.length, line.len = v'.cols := fun line hline => by
    have hmem : line ∈ v.lines.take (v.rows - removed) := hback ▸ List.mem_append_left _ hline
    exact (hv.cols line (List.mem_of_mem_take hmem)).trans hcols'.symm
  refine ⟨?_, ?_, by omega, hx⟩
  · rw [hhist, ← List.take_append_of_le_length hle, hall, List.take_left]
  · have hadded : rows.toNat - v'.rows - min (rows.toNat - v'.rows) v'.history.length = removed := by
      omega
    have hend : v.lines.drop (v.rows - removed) = List.replicate removed (.new v.cols) := by
      refine List.eq_replicate_iff.mpr ⟨?_, hnew⟩
      rw [List.length_drop, hv.rows]
      omega
    rw [hlines, map_fitLine hwidths, hback, hadded, hcols', ← hend, List.take_append_drop]

end Sheet

/-! ### The terminal -/

namespace Terminal

def visible (t : Terminal) : List Line := t.grid.visibleRows.map Row.toLine

def BlankLine (t : Terminal) (line : Line) : Prop :=
  ∀ row : Row, row.toLine = line → t.grid.blankRow row = true

/-- A resize of a terminal as `RowsKept` sees it. -/
abbrev KeepsRows (t t' : Terminal) (evicted removed restored added : Nat) : Prop :=
  RowsKept t.grid.cols t.grid.scrollbackLimit t.BlankLine t.history t.visible t.grid.cursorY
    t'.history t'.visible t'.grid.cursorY evicted removed restored added

structure SameRows (t t' : Terminal) : Prop where
  history : t'.history = t.history
  visible : t'.visible = t.visible
  cursorX : t'.grid.cursorX = t.grid.cursorX
  cursorY : t'.grid.cursorY = t.grid.cursorY

/-- What a resize to `rows` rows at the same width does. Growing takes rows back from the scrollback,
and adds blank ones when it is empty. Shrinking removes rows below the cursor, and moves rows to the
scrollback, which evicts its oldest. Growing back restores the rows of before, unless some were
evicted, written rows were removed, or there are older rows to take back instead. -/
structure ResizedTo (t t' : Terminal) (cols rows : UInt16) : Prop where
  count : t'.visible.length = rows.toNat
  cursorX : t'.grid.cursorX = t.grid.cursorX
  grow : t.grid.rows < rows.toNat → ∃ restored added, t.KeepsRows t' 0 0 restored added
  shrink : rows.toNat ≤ t.grid.rows → ∃ evicted removed, t.KeepsRows t' evicted removed 0 0 ∧
    (rows.toNat < t.grid.rows → evicted = 0 → removed = 0 ∨ t.history = [] →
      (∀ line ∈ t.visible.drop (t.visible.length - removed), line = Line.new t.grid.cols) →
      ∀ back : UInt16, back.toNat = t.grid.rows → Returns (t'.resize? cols back) t.SameRows)

variable {t t' : Terminal} {d d' : Display}

theorem visible_eq (h : t.Shows d) (hd : d.Ok) : t.visible = d.sheet.lines :=
  map_toLine_visibleRows h.grid hd.fits

theorem keepsRows_of_shows (h : t.Shows d) (hd : d.Ok) (h' : t'.Shows d') (hd' : d'.Ok)
    {evicted removed restored added : Nat}
    (hkept : RowsKept d.sheet.cols d.sheet.scrollbackLimit (d.sheet.blankRow · = true)
      d.sheet.history d.sheet.lines d.sheet.cursorY d'.sheet.history d'.sheet.lines d'.sheet.cursorY
      evicted removed restored added) :
    t.KeepsRows t' evicted removed restored added := by
  have hy : t.grid.cursorY = d.sheet.cursorY := congrArg Frame.cursorY h.frame
  have hy' : t'.grid.cursorY = d'.sheet.cursorY := congrArg Frame.cursorY h'.frame
  have hlimit : t.grid.scrollbackLimit = d.sheet.scrollbackLimit :=
    congrArg Frame.scrollbackLimit h.frame
  unfold KeepsRows
  rw [hy, hy', hlimit, h.grid.cols_eq, history_eq h, history_eq h', visible_eq h hd,
    visible_eq h' hd']
  refine ⟨hkept.rows, hkept.cursor, hkept.below, ?_, hkept.limit, hkept.exhausted⟩
  refine hkept.content.imp_right fun hblank line hline row hrow => ?_
  rw [Grid.blankRow_eq h.grid, hrow]
  exact hblank line hline

theorem Shows.resizeMain? (h : t.Shows d) (hd : d.Ok) (hmain : d.state.inAltScreen = false)
    (cols rows : UInt16) : Returns (t.resize? cols rows) fun t' => ∃ (d' : Display) (keepWrap : Bool),
      t'.Shows d' ∧ d'.Ok ∧ d'.state.inAltScreen = false ∧
        d'.sheet = d.sheet.resizeGrid false cols rows keepWrap := by
  refine (h.resize? hd cols rows).mono ?_
  rintro t' ⟨keepWrap, h'⟩
  refine ⟨_, keepWrap, h', Display.ok_resize hd cols rows keepWrap, hmain, ?_⟩
  change d.sheet.resizeGrid d.state.inAltScreen cols rows keepWrap = _
  rw [hmain]

theorem Shows.resizedTo (h : t.Shows d) (hd : d.Ok) (hmain : t.state.inAltScreen = false)
    {cols rows : UInt16} (hcols : cols.toNat = t.grid.cols) (hrows : 0 < rows.toNat) :
    Returns (t.resize? cols rows) (t.ResizedTo · cols rows) := by
  have hmain' : d.state.inAltScreen = false :=
    (congrArg ScreenState.inAltScreen h.state).symm.trans hmain
  have hwidth (rows : UInt16) : (sanitizeDimensions cols rows).cols = d.sheet.cols := by
    have hpos := d.sheet.cols_pos
    change max cols.toNat 1 = _
    rw [hcols, h.grid.cols_eq]
    omega
  have hle : d.sheet.history.length ≤ d.sheet.scrollbackLimit :=
    Display.mainLimit_of_main hd hmain' ▸ hd.history
  have hx : t.grid.cursorX = d.sheet.cursorX := congrArg Frame.cursorX h.frame
  refine (h.resizeMain? hd hmain' cols rows).mono ?_
  rintro t' ⟨d', keepWrap, h', hd', hmain'', hsheet⟩
  have hx' : t'.grid.cursorX = d'.sheet.cursorX := congrArg Frame.cursorX h'.frame
  have hrows' : d'.sheet.rows = rows.toNat := by
    rw [hsheet]
    exact Sheet.sanitized_rows hrows
  have hcols' : d'.sheet.cols = d.sheet.cols := by
    rw [hsheet]
    exact hwidth rows
  have hcount : t'.visible.length = rows.toNat := by
    rw [visible_eq h' hd', hd'.fits.rows, hrows']
  by_cases hgrow : t.grid.rows < rows.toNat
  · rw [h.grid.rows_eq] at hgrow
    obtain ⟨restored, added, hkept, hcursor⟩ :=
      Sheet.rowsKept_grow hd.fits keepWrap (hwidth rows) hgrow
    rw [← hsheet] at hkept hcursor
    refine ⟨hcount, by rw [hx', hx, hcursor], fun _ =>
      ⟨restored, added, keepsRows_of_shows h hd h' hd' hkept⟩, fun hle => ?_⟩
    rw [h.grid.rows_eq] at hle
    omega
  · have hshrink : rows.toNat ≤ d.sheet.rows := by
      rw [← h.grid.rows_eq]
      omega
    obtain ⟨evicted, removed, hkept, hcursor⟩ :=
      Sheet.resizeGrid_shrink hd.fits hle keepWrap hrows (hwidth rows) hshrink
    rw [← hsheet] at hkept hcursor
    refine ⟨hcount, by rw [hx', hx, hcursor], fun hlt => absurd hlt hgrow, fun _ =>
      ⟨evicted, removed, keepsRows_of_shows h hd h' hd' hkept, ?_⟩⟩
    rintro hless rfl hempty hnew back hback
    rw [visible_eq h hd, h.grid.cols_eq] at hnew
    rw [history_eq h] at hempty
    rw [h.grid.rows_eq] at hless hback
    refine (h'.resizeMain? hd' hmain'' cols back).mono ?_
    rintro t'' ⟨d'', keepWrap', h'', hd'', -, hsheet'⟩
    obtain ⟨hhist, hlines, hy, hcursor'⟩ := Sheet.resizeGrid_growBack hd.fits hd'.fits hkept hempty hnew
      keepWrap' hcols' (hwidth back) hback (by rw [hrows']; exact hless)
    rw [← hsheet'] at hhist hlines hy hcursor'
    have hx'' : t''.grid.cursorX = d''.sheet.cursorX := congrArg Frame.cursorX h''.frame
    have hy' : t.grid.cursorY = d.sheet.cursorY := congrArg Frame.cursorY h.frame
    have hy'' : t''.grid.cursorY = d''.sheet.cursorY := congrArg Frame.cursorY h''.frame
    refine ⟨?_, ?_, ?_, ?_⟩
    · rw [history_eq h'', history_eq h, hhist]
    · rw [visible_eq h'' hd'', visible_eq h hd, hlines]
    · rw [hx'', hx, hcursor', hcursor]
    · rw [hy'', hy', hy]

end Terminal

namespace Screen

/-- **Vertical resizes keep the rows**, from every state that a run reaches on the main screen, on
both terminals. -/
theorem resizedTo_of_run (charWidth : Char → Nat) (cols rows : UInt16) (limit : Nat)
    (events : List Event) (s : Screen)
    (hrun : (Screen.new cols rows limit).run? charWidth events = some s) (t : Terminal)
    (ht : t = s.terminal ∨ t = s.logical) (hmain : t.state.inAltScreen = false)
    (cols' rows' : UInt16) (hcols : cols'.toNat = t.grid.cols) (hrows : 0 < rows'.toNat) :
    Returns (t.resize? cols' rows') (t.ResizedTo · cols' rows') := by
  obtain ⟨hterminal, hlogical⟩ := run?_terminals hrun
  rcases ht with rfl | rfl
  · obtain ⟨d, hd⟩ := (Terminal.styled_new cols rows limit false).run? hterminal
    exact hd.shows.resizedTo hd.ok hmain hcols hrows
  · obtain ⟨d, hd⟩ := (Terminal.styled_new cols rows limit true).run? hlogical
    exact hd.shows.resizedTo hd.ok hmain hcols hrows

def threeRows : List Event :=
  [.callback (.print 'a'), .callback (.execute 0x0A), .callback (.print 'b'),
    .callback (.execute 0x0A), .callback (.print 'c')]

theorem resizedTo_threeRows : ∃ s, (Screen.new 4 2 5).run? (fun _ => 1) threeRows = some s ∧
    Returns (s.terminal.resize? 4 1) (s.terminal.ResizedTo · 4 1) :=
  ⟨_, rfl, resizedTo_of_run (fun _ => 1) 4 2 5 threeRows _ rfl _ (.inl rfl) rfl 4 1 rfl (by decide)⟩

/-- One row is left of two, the second of which is written. -/
theorem not_keeps_blank {t t' : Terminal} (row : Row)
    (hleft : t'.history.length = 0 ∧ t'.visible.length = 1) (hlimit : t.grid.scrollbackLimit ≠ 0)
    (hhistory : t.history.length = 0) (hvisible : t.visible.length = 2)
    (hrow : row.toLine ∈ t.visible.drop 1) (hwritten : t.grid.blankRow row = false)
    {evicted removed restored added : Nat} (hkept : t.KeepsRows t' evicted removed restored added) :
    ∃ line ∈ t.visible.drop (t.visible.length - removed), ¬t.BlankLine line := by
  have hrows := congrArg List.length hkept.rows
  simp only [List.length_append, List.length_drop, List.length_take, List.length_map,
    List.length_replicate] at hrows
  have hevicted : evicted = 0 := hkept.limit.resolve_right fun h => hlimit (by omega)
  have hbelow := hkept.below
  have hremoved : removed = 1 := by omega
  refine ⟨row.toLine, ?_, fun hblank => ?_⟩
  · rw [hvisible, hremoved]
    exact hrow
  · rw [hblank row rfl] at hwritten
    cases hwritten

/-- The cursor is on the first row, and a written row below it goes. -/
theorem shrink_removes_written : ∃ s t', (Screen.new 4 2 5).run? (fun _ => 1)
      [.callback (.print 'a'), .callback (.execute 0x0A), .callback (.print 'b'),
        .callback (.csiDispatch [] [] 'H')] = some s ∧
    s.terminal.state.inAltScreen = false ∧ s.terminal.resize? 4 1 = some t' ∧
    ¬ ∃ evicted removed restored added, s.terminal.KeepsRows t' evicted removed restored added ∧
      ∀ line ∈ s.terminal.visible.drop (s.terminal.visible.length - removed),
        s.terminal.BlankLine line := by
  refine ⟨_, _, rfl, rfl, rfl, ?_⟩
  rintro ⟨evicted, removed, restored, added, hkept, hblank⟩
  obtain ⟨line, hline, hwritten⟩ := not_keeps_blank
    { cells := [{ c := ' ' }, { c := 'b' }, { c := ' ' }, { c := ' ' }] }
    ⟨by decide, by decide⟩ (by decide) (by decide) (by decide)
    (by decide) (by decide) hkept
  exact hwritten (hblank line hline)

end Screen

end QuorumDispatch.Screen
