import QuorumDispatch.Screen.LogicalHistory
import Mathlib.Data.List.DropRight

/-!
The text of a logical history: chunks are joined up to each end of a line, without what
pads a margin and without the second halves of wide characters. Text is compared up to
spaces at the end of its lines and blank lines at its end.
-/

namespace QuorumDispatch.Screen

open Lib

/-! ### Trimming -/

def trimEnd (line : List Char) : List Char := line.rdropWhile (· == ' ')

def trimText (lines : List (List Char)) : List (List Char) :=
  (lines.map trimEnd).rdropWhile List.isEmpty

theorem rdropWhile_append {α : Type} {p : α → Bool} (xs : List α) {ys : List α}
    (h : ∀ y ∈ ys, p y = true) : (xs ++ ys).rdropWhile p = xs.rdropWhile p := by
  induction ys using List.reverseRecOn with
  | nil => rw [List.append_nil]
  | append_singleton ys y ih =>
      rw [← List.append_assoc, List.rdropWhile_concat_pos p _ y (h y (by simp))]
      exact ih fun z hz => h z (by simp [hz])

theorem trimEnd_append_spaces (line : List Char) (n : Nat) :
    trimEnd (line ++ List.replicate n ' ') = trimEnd line := by
  refine rdropWhile_append line fun c hc => ?_
  rw [List.eq_of_mem_replicate hc]
  rfl

theorem trimEnd_spaces {line : List Char} (h : ∀ c ∈ line, c = ' ') : trimEnd line = [] := by
  rw [trimEnd, List.rdropWhile_eq_nil_iff]
  intro c hc
  simp [h c hc]

theorem trimText_append_blank (lines : List (List Char)) {blank : List (List Char)}
    (h : ∀ line ∈ blank, ∀ c ∈ line, c = ' ') : trimText (lines ++ blank) = trimText lines := by
  rw [trimText, List.map_append]
  refine rdropWhile_append _ fun line hline => ?_
  obtain ⟨line, hmem, rfl⟩ := List.mem_map.mp hline
  rw [trimEnd_spaces (h line hmem)]
  rfl

/-! ### Joining -/

def LogicalHistoryChunk.text (chunk : LogicalHistoryChunk) : List Char :=
  (chunk.cells.filter fun cell => !cell.wideEarlyPadding && cell.displayWidth != 0).map
    LogicalCell.ch

/-- The lines so far and what there is of the next, with one more chunk. -/
def joinChunk (joined : List (List Char) × List Char) (chunk : LogicalHistoryChunk) :
    List (List Char) × List Char :=
  let line := joined.2 ++ chunk.text
  if chunk.endOfLine then (joined.1 ++ [line], []) else (joined.1, line)

def joinedLines (chunks : List LogicalHistoryChunk) : List (List Char) :=
  let joined := chunks.foldl joinChunk ([], [])
  if joined.2.isEmpty then joined.1 else joined.1 ++ [joined.2]

theorem foldl_joinChunk (chunks : List LogicalHistoryChunk) (lines : List (List Char))
    (rest : List Char) : chunks.foldl joinChunk (lines, rest) =
      (lines ++ (chunks.foldl joinChunk ([], rest)).1, (chunks.foldl joinChunk ([], rest)).2) := by
  induction chunks generalizing lines rest with
  | nil => simp
  | cons chunk chunks ih =>
      rw [List.foldl_cons, List.foldl_cons, joinChunk, joinChunk]
      dsimp only
      split_ifs
      · rw [ih, ih ([] ++ [rest ++ chunk.text])]
        simp
      · exact ih lines _

def EndsLine (chunks : List LogicalHistoryChunk) : Prop :=
  ∀ chunk ∈ chunks.getLast?, chunk.endOfLine = true

theorem EndsLine.rest {chunks : List LogicalHistoryChunk} (h : EndsLine chunks) :
    (chunks.foldl joinChunk ([], [])).2 = [] := by
  rcases List.eq_nil_or_concat chunks with rfl | ⟨init, last, rfl⟩
  · rfl
  · have hlast : last.endOfLine = true := h last (by simp)
    rw [List.concat_eq_append, List.foldl_append, List.foldl_cons, List.foldl_nil, joinChunk]
    simp [hlast]

theorem EndsLine.joinedLines {chunks : List LogicalHistoryChunk} (h : EndsLine chunks) :
    joinedLines chunks = (chunks.foldl joinChunk ([], [])).1 := by
  rw [Screen.joinedLines]
  simp [h.rest]

theorem joinedLines_append {chunks more : List LogicalHistoryChunk} (h : EndsLine chunks) :
    joinedLines (chunks ++ more) = joinedLines chunks ++ joinedLines more := by
  have hsplit : (chunks ++ more).foldl joinChunk ([], []) =
      ((chunks.foldl joinChunk ([], [])).1 ++ (more.foldl joinChunk ([], [])).1,
        (more.foldl joinChunk ([], [])).2) := by
    rw [List.foldl_append, show chunks.foldl joinChunk ([], []) =
      ((chunks.foldl joinChunk ([], [])).1, []) from Prod.ext rfl h.rest, foldl_joinChunk]
  rw [h.joinedLines, joinedLines, hsplit, joinedLines]
  dsimp only
  split_ifs
  · rfl
  · rw [List.append_assoc]

theorem joinedLines_blank {chunks : List LogicalHistoryChunk}
    (h : ∀ chunk ∈ chunks, ∀ c ∈ chunk.text, c = ' ') :
    ∀ line ∈ joinedLines chunks, ∀ c ∈ line, c = ' ' := by
  have hfold : ∀ (chunks : List LogicalHistoryChunk) (joined : List (List Char) × List Char),
      (∀ chunk ∈ chunks, ∀ c ∈ chunk.text, c = ' ') →
      (∀ line ∈ joined.1, ∀ c ∈ line, c = ' ') ∧ (∀ c ∈ joined.2, c = ' ') →
      (∀ line ∈ (chunks.foldl joinChunk joined).1, ∀ c ∈ line, c = ' ') ∧
        ∀ c ∈ (chunks.foldl joinChunk joined).2, c = ' ' := by
    intro chunks
    induction chunks with
    | nil => exact fun joined _ hjoined => hjoined
    | cons chunk chunks ih =>
        intro joined hchunks hjoined
        have hline : ∀ c ∈ joined.2 ++ chunk.text, c = ' ' := by
          intro c hc
          obtain hmem | hmem := List.mem_append.mp hc
          · exact hjoined.2 c hmem
          · exact hchunks chunk List.mem_cons_self c hmem
        refine ih _ (fun chunk hmem => hchunks chunk (List.mem_cons_of_mem _ hmem)) ?_
        rw [joinChunk]
        split_ifs
        · refine ⟨fun line hmem => ?_, by simp⟩
          obtain hmem | hmem := List.mem_append.mp hmem
          · exact hjoined.1 line hmem
          · rw [List.mem_singleton.mp hmem]
            exact hline
        · exact ⟨hjoined.1, hline⟩
  obtain ⟨hlines, hrest⟩ := hfold chunks ([], []) h ⟨by simp, by simp⟩
  intro line hline
  rw [joinedLines] at hline
  split_ifs at hline
  · exact hlines line hline
  · obtain hmem | hmem := List.mem_append.mp hline
    · exact hlines line hmem
    · rw [List.mem_singleton.mp hmem]
      exact hrest

/-! ### Blank lines that are left out -/

theorem text_of_omittableBlank {chunk : LogicalHistoryChunk}
    (h : logicalCellsAreOmittableBlank chunk.cells = true) : ∀ c ∈ chunk.text, c = ' ' := by
  intro c hc
  obtain ⟨cell, hcell, rfl⟩ := List.mem_map.mp hc
  simp only [logicalCellsAreOmittableBlank, List.all_eq_true, Bool.and_eq_true, beq_iff_eq] at h
  exact (h cell (List.mem_of_mem_filter hcell)).1.1.1.1

namespace Grid

theorem endsLine_take_lastLineStart (chunks : List (LogicalHistoryChunk × Bool)) :
    EndsLine ((chunks.take (lastLineStart chunks)).map Prod.fst) := by
  intro chunk hchunk
  unfold lastLineStart at hchunk
  split at hchunk
  next i hfind =>
    obtain ⟨hi, hend, -⟩ := List.findIdx?_eq_some_iff_getElem.mp hfind
    rw [List.length_reverse] at hi
    rw [List.getElem_reverse] at hend
    have hlast : (chunks.take (chunks.dropLast.length - i)).getLast? =
        some (chunks.dropLast[chunks.dropLast.length - 1 - i]) := by
      have hle : chunks.dropLast.length ≤ chunks.length := by simp
      rw [List.getLast?_take, if_neg (by omega),
        List.getElem?_eq_getElem (show chunks.dropLast.length - i - 1 < chunks.length by omega),
        Option.some_or, List.getElem_dropLast]
      congr 2
      omega
    rw [List.getLast?_map, hlast] at hchunk
    cases hchunk
    exact hend
  next => simp at hchunk

theorem trimText_omitBlankLines (turns : Nat) (chunks : List (LogicalHistoryChunk × Bool)) :
    trimText (joinedLines ((omitBlankLines turns chunks).map Prod.fst)) =
      trimText (joinedLines (chunks.map Prod.fst)) := by
  induction turns generalizing chunks with
  | zero => rfl
  | succ turns ih =>
      unfold omitBlankLines
      split
      · rfl
      · dsimp only
        split_ifs with hblank
        · rw [ih]
          have hsplit : chunks.map Prod.fst = (chunks.take (lastLineStart chunks)).map Prod.fst ++
              (chunks.drop (lastLineStart chunks)).map Prod.fst := by
            rw [← List.map_append, List.take_append_drop]
          rw [hsplit, joinedLines_append (endsLine_take_lastLineStart chunks)]
          refine (trimText_append_blank _ (joinedLines_blank fun chunk hchunk => ?_)).symm
          obtain ⟨chunk, hmem, rfl⟩ := List.mem_map.mp hchunk
          have hall := List.all_eq_true.mp hblank.2 chunk hmem
          simp only [Bool.and_eq_true] at hall
          exact text_of_omittableBlank hall.2
        · rfl

end Grid

/-! ### The rows of an emission -/

namespace Row

/-- How many cells at the end are there because a wide character did not fit. -/
def earlyPadding (row : Row) : Nat :=
  ((row.outgoing.filter fun edge => edge.kind = .wideEarly).map WrapEdge.paddingCount).getD 0

def cellsText (cells : List Cell) : List Char :=
  (cells.filter fun cell => cell.width != 0).map Cell.c

def text (row : Row) : List Char := cellsText (row.cells.take (row.len - row.earlyPadding))

end Row

theorem filter_mapIdx_all {α β : Type} {f : Nat → α → β} {p : β → Bool} {q : α → Bool}
    (xs : List α) (h : ∀ i a, i < xs.length → p (f i a) = q a) {g : β → Char} {k : α → Char}
    (hg : ∀ i a, g (f i a) = k a) :
    ((xs.mapIdx f).filter p).map g = (xs.filter q).map k := by
  induction xs generalizing f with
  | nil => rfl
  | cons a xs ih =>
      have hrest := ih (f := fun i => f (i + 1))
        (fun i b hi => h (i + 1) b (by simpa using hi)) (fun i b => hg (i + 1) b)
      rw [List.mapIdx_cons, List.filter_cons, List.filter_cons, h 0 a (by simp)]
      split_ifs
      · rw [List.map_cons, List.map_cons, hg, hrest]
      · exact hrest

theorem text_logicalCellsForRow (line : Line) (styles : StyleTable) (padding : Nat)
    (endOfLine : Bool) :
    ({ cells := logicalCellsForRow line styles padding, endOfLine } : LogicalHistoryChunk).text =
      Row.cellsText (line.cells.take (line.len - padding)) := by
  have hlen : (line.cells.take (line.len - padding)).length = line.len - padding := by
    simp [Line.len]
  rw [LogicalHistoryChunk.text, logicalCellsForRow]
  dsimp only
  nth_rewrite 1 [← List.take_append_drop (line.len - padding) line.cells]
  rw [List.mapIdx_append, List.filter_append, List.map_append, hlen]
  have hpad : (List.filter (fun cell : LogicalCell => !cell.wideEarlyPadding && cell.displayWidth != 0)
      ((line.cells.drop (line.len - padding)).mapIdx fun i cell =>
        ({ ch := cell.c
           displayWidth := cell.width
           combining := line.combiningAt (i + (line.len - padding))
           style := styles.get cell.styleId
           wideEarlyPadding := decide (0 < padding) &&
             decide (line.len - padding ≤ i + (line.len - padding)) } : LogicalCell))) = [] := by
    by_cases hzero : padding = 0
    · subst hzero
      rw [Nat.sub_zero, List.drop_of_length_le (by simp [Line.len])]
      rfl
    · rw [List.filter_eq_nil_iff]
      intro cell hcell
      obtain ⟨i, hi, rfl⟩ := List.mem_mapIdx.mp hcell
      simp [Nat.pos_of_ne_zero hzero]
  rw [hpad, List.map_nil, List.append_nil, Row.cellsText]
  refine filter_mapIdx_all _ (fun i cell hi => ?_) fun _ _ => rfl
  rw [hlen] at hi
  simp [Nat.not_le.mpr hi]

namespace Grid

/-- Every edge holds between its row and the next, and the last row has none. -/
def Linked : List Row → Prop
  | [] => True
  | [row] => row.outgoing = none
  | row :: next :: rows =>
      validatedOutgoingBetween row next = row.outgoing ∧ Linked (next :: rows)

/-- The lines so far and what there is of the next, with one more row. -/
def joinRow (joined : List (List Char) × List Char) (row : Row) : List (List Char) × List Char :=
  let line := joined.2 ++ row.text
  if row.outgoing.isSome then (joined.1, line) else (joined.1 ++ [line], [])

theorem chunkOf_linked (styles : StyleTable) (row : Row × Bool) (next : Option (Row × Bool))
    (h : (next.bind fun target => validatedOutgoingBetween row.1 target.1) = row.1.outgoing)
    (joined : List (List Char) × List Char) :
    joinChunk joined (chunkOf styles false row next).1 = joinRow joined row.1 := by
  have hchunk : (chunkOf styles false row next).1 =
      { cells := logicalCellsForRow row.1.toLine styles row.1.earlyPadding
        endOfLine := row.1.outgoing.isNone } := by
    simp only [chunkOf, Bool.false_and, Bool.false_eq_true, if_false, h]
    rfl
  rw [hchunk, joinChunk, joinRow, text_logicalCellsForRow]
  cases row.1.outgoing <;> rfl

theorem foldl_chunksOfRows (styles : StyleTable) {rows : List (Row × Bool)}
    (h : Linked (rows.map Prod.fst)) (joined : List (List Char) × List Char) :
    ((chunksOfRows styles false rows).map Prod.fst).foldl joinChunk joined =
      (rows.map Prod.fst).foldl joinRow joined := by
  induction rows generalizing joined with
  | nil => rfl
  | cons row rows ih =>
      rw [chunksOfRows, List.map_cons, List.map_cons, List.foldl_cons, List.foldl_cons]
      cases rows with
      | nil =>
          rw [List.head?_nil, chunkOf_linked styles row none h.symm]
          rfl
      | cons next rows =>
          rw [List.head?_cons, chunkOf_linked styles row (some next) h.1]
          exact ih h.2 _

theorem linked_of_getElem {rows : List Row} (hlink : ∀ j row next, rows[j]? = some row →
      rows[j + 1]? = some next → validatedOutgoingBetween row next = row.outgoing)
    (hlast : ∀ row ∈ rows.getLast?, row.outgoing = none) : Linked rows := by
  induction rows with
  | nil => trivial
  | cons row rows ih =>
      cases rows with
      | nil => exact hlast row rfl
      | cons next rows =>
          refine ⟨hlink 0 row next rfl rfl, ih (fun j => ?_) fun last hmem => ?_⟩
          · exact fun row next hrow hnext => hlink (j + 1) row next hrow hnext
          · exact hlast last (by simpa [List.getLast?_cons_cons] using hmem)

theorem Linked.rest {rows : List Row} (h : Linked rows) {joined : List (List Char) × List Char}
    (hjoined : rows = [] → joined.2 = []) : (rows.foldl joinRow joined).2 = [] := by
  induction rows generalizing joined with
  | nil => exact hjoined rfl
  | cons row rows ih =>
      rw [List.foldl_cons]
      cases rows with
      | nil =>
          have hnone : row.outgoing = none := h
          simp [joinRow, hnone]
      | cons next rows => exact ih h.2 fun hnil => by cases hnil

theorem trimText_logicalEmission (g : Grid) (surface : LogicalEmissionSurface)
    (h : Linked (g.scrollbackRows ++ g.visibleRows)) :
    trimText (joinedLines (g.logicalEmission surface false)) =
      trimText ((g.scrollbackRows ++ g.visibleRows).foldl joinRow ([], [])).1 := by
  have hrows : (g.emittedRows surface false).map Prod.fst = g.scrollbackRows ++ g.visibleRows := by
    cases surface <;> simp [emittedRows, Function.comp_def]
  have hlinked : Linked ((g.emittedRows surface false).map Prod.fst) := hrows ▸ h
  have hfold := foldl_chunksOfRows g.styleTable hlinked ([], [])
  rw [hrows] at hfold
  have hlines : joinedLines ((chunksOfRows g.styleTable false (g.emittedRows surface false)).map
      Prod.fst) = ((g.scrollbackRows ++ g.visibleRows).foldl joinRow ([], [])).1 := by
    rw [joinedLines, hfold, h.rest fun _ => rfl]
    rfl
  rw [logicalEmission, Bool.false_and, trimText_omitBlankLines, hlines]

end Grid

end QuorumDispatch.Screen
