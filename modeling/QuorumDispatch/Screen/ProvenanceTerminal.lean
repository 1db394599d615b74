import QuorumDispatch.Screen.ProvenanceGrid
import QuorumDispatch.Screen.Reachable

/-!
The edges of a terminal, across the rows of its grid and those that are set aside while
the alternate screen is up, and what the callbacks other than printing do to them: an
edge stays only between two rows that did not change.
-/

namespace QuorumDispatch.Screen

open Lib

namespace Terminal

def savedRows (t : Terminal) : List Row := (t.state.savedGrid.map SavedGrid.visibleCells).getD []

/-- The edge joins a row to the one behind it, on the screen and in its history or in what
is set aside. -/
inductive Joins (t : Terminal) (s : Row) (e : WrapEdge) (u : Row) : Prop where
  | active (i : Nat) : t.grid.cells[i]? = some s → s.outgoing = some e →
      behind (t.grid.seam t.state.inAltScreen) t.savedRows.head? t.grid.cells i = some u → Joins t s e u
  | saved (i : Nat) : t.savedRows[i]? = some s → s.outgoing = some e →
      t.savedRows[i + 1]? = some u → Joins t s e u

structure Sound (t : Terminal) : Prop where
  domain : t.grid.inAltDomain = t.state.inAltScreen
  saved : t.state.savedGrid.isSome = t.state.inAltScreen
  ids : t.grid.IdsOk t.savedRows
  continued : Continued (t.grid.seam t.state.inAltScreen) t.savedRows.head? t.grid.cells
  savedContinued : Continued none none t.savedRows
  issued : ∀ row ∈ t.grid.cells ++ t.savedRows, ∀ edge ∈ row.outgoing,
    ∀ next ∈ t.grid.nextEdgeId, edge.edgeId < next

/-- From `t` to `t'` no edge was created, and those that stay join what they joined. -/
structure Keeps (stream : Option SequentialEdge) (t t' : Terminal) : Prop where
  sound : t.Sound → t'.Sound
  joins : t.Sound → ∀ {s' e u'}, t'.Joins s' e u' →
    ∃ s u, t.Joins s e u ∧ s.Same s' ∧ s.Kept stream u u'
  edgeId : t'.grid.nextEdgeId = t.grid.nextEdgeId

variable {t t' t'' : Terminal} {stream : Option SequentialEdge}

theorem Sound.continues (h : t.Sound) {s u : Row} {e : WrapEdge} (hj : t.Joins s e u) :
    s.Continues e u := by
  cases hj with
  | active i hs he hu =>
      obtain ⟨u', hu', hnames⟩ := h.continued i s e hs he
      cases hu.symm.trans hu'
      exact hnames
  | saved i hs he hu =>
      obtain ⟨u', hu', hnames⟩ := h.savedContinued i s e hs he
      rw [behind_none] at hu'
      cases hu.symm.trans hu'
      exact hnames

theorem Keeps.refl (stream : Option SequentialEdge) (t : Terminal) : Keeps stream t t where
  sound := id
  joins _ _ _ u' h := ⟨_, u', h, rfl, (edges stream).kept_of_same rfl⟩
  edgeId := rfl

theorem Keeps.trans (h : Keeps stream t t') (h' : Keeps stream t' t'') : Keeps stream t t'' where
  sound ht := h'.sound (h.sound ht)
  joins ht s'' e u'' hj'' := by
    obtain ⟨s', u', hj', hs', hu'⟩ := h'.joins (h.sound ht) hj''
    obtain ⟨s, u, hj, hs, hu⟩ := h.joins ht hj'
    exact ⟨s, u, hj, hs.trans hs', (edges stream).kept_trans hs hu hu'⟩
  edgeId := h'.edgeId.trans h.edgeId

theorem Sound.joins_of_inherits (h : t.Sound) {seam : Option Nat} {cells : List Row}
    (hlinks : (edges stream).Inherits t.savedRows.head? (t.grid.seam t.state.inAltScreen)
      t.grid.cells seam cells) {i : Nat} {s' u' : Row} {e : WrapEdge} (hs' : cells[i]? = some s')
    (he : s'.outgoing = some e) (hu' : behind seam t.savedRows.head? cells i = some u') :
    ∃ s u, t.Joins s e u ∧ s.Same s' ∧ s.Kept stream u u' := by
  obtain ⟨j, s, hs, hes, hsame, hbehind⟩ := hlinks i s' e hs' he
  obtain ⟨u, hu, hnames⟩ := h.continued j s e hs hes
  obtain ⟨u'', hu'', hkept⟩ := hbehind u hu hnames
  cases hu''.symm.trans hu'
  exact ⟨s, u, .active j hs hes hu, hsame, hkept⟩

/-- Where every edge comes from, in a grid that inherits its links. -/
theorem mem_of_inherits {head : Option Row} {seam seam' : Option Nat} {rows rows' : List Row}
    (h : (edges stream).Inherits head seam rows seam' rows') {row' : Row} (hrow : row' ∈ rows')
    {edge : WrapEdge} (hedge : row'.outgoing = some edge) :
    ∃ row ∈ rows, row.outgoing = some edge := by
  obtain ⟨i, hi⟩ := List.mem_iff_getElem?.mp hrow
  obtain ⟨j, row, hrow, he, -⟩ := h i row' edge hi hedge
  exact ⟨row, List.mem_of_getElem? hrow, he⟩

/-- What an operation on the grid carries, while the rows that are set aside stay. -/
structure Carries (stream : Option SequentialEdge) (t t' : Terminal) : Prop where
  grid : t.grid.Carries t.state.inAltScreen stream t'.grid
  saved : t'.state.savedGrid = t.state.savedGrid
  alt : t'.state.inAltScreen = t.state.inAltScreen

theorem Carries.savedRows (h : t.Carries stream t') : t'.savedRows = t.savedRows := by
  rw [Terminal.savedRows, Terminal.savedRows, h.saved]

theorem Carries.sound (h : t.Carries stream t') (ht : t.Sound) : t'.Sound := by
  refine ⟨h.grid.domain.trans (ht.domain.trans h.alt.symm), ?_, ?_, ?_, ?_, ?_⟩
  · rw [h.saved, h.alt]
    exact ht.saved
  · rw [h.savedRows]
    exact h.grid.ids _ ht.ids
  · rw [h.savedRows, h.alt]
    exact (h.grid.links _).linked ht.continued
  · rw [h.savedRows]
    exact ht.savedContinued
  · rw [h.savedRows, h.grid.edgeId]
    intro row hrow edge hedge
    rcases List.mem_append.mp hrow with hrow | hrow
    · obtain ⟨row', hrow', he⟩ := mem_of_inherits (h.grid.links none) hrow hedge
      exact ht.issued row' (List.mem_append_left _ hrow') edge he
    · exact ht.issued row (List.mem_append_right _ hrow) edge hedge

theorem Carries.joins (h : t.Carries stream t') (ht : t.Sound) {s' u' : Row} {e : WrapEdge}
    (hj : t'.Joins s' e u') : ∃ s u, t.Joins s e u ∧ s.Same s' ∧ s.Kept stream u u' := by
  cases hj with
  | active i hs he hu =>
      rw [h.savedRows, h.alt] at hu
      exact ht.joins_of_inherits (h.grid.links _) hs he hu
  | saved i hs he hu =>
      rw [h.savedRows] at hs hu
      exact ⟨s', u', .saved i hs he hu, rfl, (edges stream).kept_of_same rfl⟩

theorem Carries.keeps (h : t.Carries stream t') : Keeps stream t t' where
  sound := h.sound
  joins ht _ _ _ hj := h.joins ht hj
  edgeId := h.grid.edgeId

theorem Carries.refl (stream : Option SequentialEdge) (t : Terminal) : t.Carries stream t :=
  ⟨.refl .., rfl, rfl⟩

theorem Carries.trans (h : t.Carries stream t') (h' : t'.Carries stream t'') :
    t.Carries stream t'' where
  grid := h.grid.trans (h.alt ▸ h'.grid)
  saved := h'.saved.trans h.saved
  alt := h'.alt.trans h.alt

theorem Carries.mono (h : t.Carries none t') : t.Carries stream t' :=
  ⟨h.grid.mono, h.saved, h.alt⟩

theorem carries_withGrid {f : Grid → Grid}
    (hf : t.grid.Carries t.state.inAltScreen stream (f t.grid)) : t.Carries stream (t.withGrid f) :=
  ⟨hf, rfl, rfl⟩

theorem carries_withGrid? {f : Grid → Option Grid}
    (hf : Ensures (f t.grid) (t.grid.Carries t.state.inAltScreen stream)) :
    Ensures (t.withGrid? f) (t.Carries stream) :=
  .bind hf fun _ h => .pure ⟨h, rfl, rfl⟩

/-- The rows and their provenance stay as they are. -/
theorem carries_of_rows (hcells : t'.grid.cells = t.grid.cells)
    (hboundary : t'.grid.scrollbackLen = t.grid.scrollbackLen)
    (hrow : t'.grid.nextRowId = t.grid.nextRowId) (hedge : t'.grid.nextEdgeId = t.grid.nextEdgeId)
    (hdomain : t'.grid.inAltDomain = t.grid.inAltDomain)
    (hseq : t'.grid.sequentialEdge = t.grid.sequentialEdge)
    (hsaved : t'.state.savedGrid = t.state.savedGrid)
    (halt : t'.state.inAltScreen = t.state.inAltScreen) : t.Carries stream t' where
  grid := .of_cells hcells (fun _ => hboundary) hrow hedge hdomain fun _ h => hseq ▸ h
  saved := hsaved
  alt := halt

theorem carries_withModes (t : Terminal) (f : TerminalModes → TerminalModes) :
    t.Carries stream (t.withModes f) :=
  carries_of_rows rfl rfl rfl rfl rfl rfl rfl rfl

theorem carries_withState {f : ScreenState SavedGrid → ScreenState SavedGrid}
    (hsaved : (f t.state).savedGrid = t.state.savedGrid)
    (halt : (f t.state).inAltScreen = t.state.inAltScreen) : t.Carries stream (t.withState f) :=
  carries_of_rows rfl rfl rfl rfl rfl rfl hsaved halt

theorem carries_pushPassthrough (t : Terminal) (data : Bytes) :
    t.Carries stream (t.withState (·.pushPassthrough data)) := by
  refine carries_withState ?_ ?_ <;>
    · unfold ScreenState.pushPassthrough
      split_ifs <;> rfl

theorem carries_pushResponse (t : Terminal) (data : Bytes) :
    t.Carries stream (t.withState (·.pushResponse data)) := by
  refine carries_withState ?_ ?_ <;>
    · unfold ScreenState.pushResponse
      split_ifs <;> rfl

theorem carries_moveCursor (t : Terminal) (f : Frame → Frame) :
    t.Carries stream (t.moveCursor f) :=
  carries_withGrid (t.grid.carries_moveCursor f)

/-! ### Styles -/

theorem carries_intern? (t : Terminal) (style : Style) :
    Ensures (t.intern? style) fun r => t.Carries stream r.2 :=
  .bind_some fun _ _ => .pure (carries_of_rows rfl rfl rfl rfl rfl rfl rfl rfl)

theorem carries_internWithGc? (t : Terminal) (style : Style) :
    Ensures (t.internWithGc? style) fun r => t.Carries stream r.2 := by
  unfold internWithGc?
  refine .bind (Q := fun r => t.Carries stream r.2) (t.carries_intern? style) ?_
  rintro ⟨id, t₁⟩ h
  dsimp only
  split
  · have hcompact : t₁.Carries stream (t₁.withGrid (compactStyles · t₁.state.savedGrid)) :=
      carries_of_rows rfl rfl rfl rfl rfl rfl rfl rfl
    exact (carries_intern? _ style).mono fun _ h' => (h.trans hcompact).trans h'
  · exact .pure h

theorem carries_blankCell? (t : Terminal) : Ensures t.blankCell? fun r => t.Carries stream r.2 :=
  .bind (t.carries_internWithGc? _) fun _ h => .pure h

/-- An operation that first interns the blank. -/
theorem carries_blank {f : Cell × Terminal → Option Terminal}
    (hf : ∀ blank t, Ensures (f (blank, t)) (Carries stream t)) :
    Ensures (t.blankCell? >>= f) (t.Carries stream) :=
  .bind t.carries_blankCell? fun r h => (hf r.1 r.2).mono fun _ h' => h.trans h'

/-! ### The cursor and scrolling -/

theorem carries_scrollUp? (t : Terminal) : Ensures t.scrollUp? (t.Carries stream) :=
  carries_blank fun _ _ => carries_withGrid? (Grid.carries_scrollUp? _ _ _)

theorem carries_scrollDown? (t : Terminal) : Ensures t.scrollDown? (t.Carries stream) :=
  carries_blank fun _ _ => carries_withGrid? (Grid.carries_scrollDown? _ _)

theorem carries_lineFeed? (t : Terminal) : Ensures t.lineFeed? (t.Carries stream) := by
  unfold lineFeed?
  split
  · exact t.carries_scrollUp?
  · split
    · exact .pure (carries_of_rows rfl rfl rfl rfl rfl rfl rfl rfl)
    · exact .pure (.refl ..)

theorem carries_saveCursor (t : Terminal) (altEpoch : Option Nat) (savedByAlt1049 : Bool) :
    t.Carries stream (t.saveCursor altEpoch savedByAlt1049) :=
  carries_of_rows rfl rfl rfl rfl rfl rfl rfl rfl

theorem carries_restoreCursor (t : Terminal) (geometryInvalid : Bool) :
    t.Carries stream (t.restoreCursor geometryInvalid) := by
  unfold restoreCursor
  dsimp only
  have hgeometry : t.Carries stream
      (t.withGrid (·.invalidatePendingForGeometry (.altRestore geometryInvalid))) :=
    carries_withGrid (t.grid.carries_invalidatePendingForGeometry _)
  split
  · exact hgeometry
  next saved _ =>
    refine hgeometry.trans ((carries_withGrid ?_).trans (carries_of_rows rfl rfl rfl rfl rfl rfl rfl rfl))
    exact ((Grid.carries_invalidate _).trans (Grid.carries_setWrapPending _ _)).trans
      (Grid.carries_withFrame _ _)

theorem carries_reverseIndex? (t : Terminal) : Ensures t.reverseIndex? (t.Carries stream) := by
  unfold reverseIndex?
  dsimp only
  have hcut : t.Carries stream (t.withGrid (·.invalidateProvenanceKeepRaw)) :=
    carries_withGrid t.grid.carries_invalidate
  split
  · exact (carries_scrollDown? _).mono fun _ h => hcut.trans h
  · split
    · exact .pure (hcut.trans (carries_of_rows rfl rfl rfl rfl rfl rfl rfl rfl))
    · exact .pure hcut

theorem carries_execute? (t : Terminal) (byte : UInt8) :
    Ensures (t.execute? byte) (t.Carries stream) := by
  unfold execute?
  split
  · exact .pure (carries_withGrid ((t.grid.carries_withFrame fun f => { f with cursorX := 0 }).trans
      (Grid.carries_setWrapPending _ false)))
  · exact (carries_lineFeed? _).mono fun _ h =>
      (carries_withGrid (t.grid.carries_setWrapPending false)).trans h
  · exact (carries_lineFeed? _).mono fun _ h =>
      (carries_withGrid (t.grid.carries_setWrapPending false)).trans h
  · exact (carries_lineFeed? _).mono fun _ h =>
      (carries_withGrid (t.grid.carries_setWrapPending false)).trans h
  · exact .pure (t.carries_moveCursor _)
  · exact .pure (t.carries_moveCursor _)
  · exact .pure (t.carries_withModes _)
  · exact .pure (t.carries_withModes _)
  · exact .pure (t.carries_pushPassthrough _)
  · exact .pure (.refl ..)

/-! ### Erasing and editing -/

theorem carries_eraseCells? (t : Terminal) (y start stop : Nat) (blank : Cell) :
    Ensures (t.withGrid? (·.eraseCells? y start stop blank)) (t.Carries none) :=
  carries_withGrid? (t.grid.carries_eraseCells? y start stop blank)

theorem carries_eraseRows? (t : Terminal) (startY stopY : Nat) (blank : Cell) :
    Ensures (t.withGrid? (·.eraseRows? startY stopY blank)) (t.Carries none) :=
  carries_withGrid? (t.grid.carries_eraseRows? startY stopY blank)

theorem carries_csiEraseDisplay? (t : Terminal) (mode : Nat) :
    Ensures (t.csiEraseDisplay? mode) (t.Carries none) := by
  refine carries_blank fun blank t => ?_
  dsimp only
  split
  · exact .bind (t.carries_eraseCells? _ _ _ _) fun t₁ h => (t₁.carries_eraseRows? _ _ _).mono fun _ h' => h.trans h'
  · exact .bind (t.carries_eraseRows? _ _ _) fun t₁ h => (t₁.carries_eraseCells? _ _ _ _).mono fun _ h' => h.trans h'
  · exact t.carries_eraseRows? _ _ _
  · exact .bind (carries_withGrid? t.grid.carries_clearScrollback?) fun t₁ h =>
      .pure (h.trans (t₁.carries_pushPassthrough _))
  · exact .pure (.refl ..)

theorem carries_csiEraseLine? (t : Terminal) (mode : Nat) :
    Ensures (t.csiEraseLine? mode) (t.Carries none) := by
  refine carries_blank fun blank t => ?_
  dsimp only
  split
  · exact t.carries_eraseCells? _ _ _ _
  · exact t.carries_eraseCells? _ _ _ _
  · exact t.carries_eraseCells? _ _ _ _
  · exact .pure (.refl ..)

theorem carries_csiEraseCharacter? (t : Terminal) (n : Nat) :
    Ensures (t.csiEraseCharacter? n) (t.Carries none) := by
  refine carries_blank fun blank t => ?_
  dsimp only
  split
  · exact t.carries_eraseCells? _ _ _ _
  · exact .pure (.refl ..)

def Relined (row row' : Row) : Prop := ∃ line, row' = { row with toLine := line }

theorem Relined.trans {row row' row'' : Row} (h : Relined row row') (h' : Relined row' row'') :
    Relined row row'' := by
  obtain ⟨line, rfl⟩ := h
  obtain ⟨line', rfl⟩ := h'
  exact ⟨line', rfl⟩

theorem relined_set? (row : Row) (x : Nat) (cell : Cell) :
    Ensures (row.set? x cell) (Relined row) := by
  unfold Row.set?
  split
  · exact .pure ⟨_, rfl⟩
  · exact fun _ h => by cases h

theorem relined_deleteCell? (x : Nat) (blank : Cell) (row : Row) :
    Ensures (deleteCell? x blank row) (Relined row) := by
  refine .bind (Q := Relined row) ?_ fun row' h => .pure (h.trans ⟨_, rfl⟩)
  unfold Row.remove?
  split
  · exact .pure ⟨_, rfl⟩
  · exact fun _ h => by cases h

theorem relined_insertCell? (x : Nat) (blank : Cell) (row : Row) :
    Ensures (insertCell? x blank row) (Relined row) := by
  unfold insertCell? Row.insert?
  split
  · exact .pure ⟨_, rfl⟩
  · exact fun _ h => by cases h

theorem relined_blankContinuation? (x : Nat) (blank : Cell) (row : Row) :
    Ensures (blankContinuation? x blank row) (Relined row) := by
  refine .bind (relined_set? row x blank) fun row' h => ?_
  split
  · refine .bind_some fun before _ => ?_
    split
    · exact (relined_set? row' _ _).mono fun _ h' => h.trans h'
    · exact .pure h
  · exact .pure h

theorem relined_fixDeleted? (x cols : Nat) (blank : Cell) (row : Row) :
    Ensures (fixDeleted? x cols blank row) (Relined row) := by
  unfold fixDeleted?
  split
  · refine .bind_some fun cell _ => ?_
    split
    · exact relined_blankContinuation? x blank row
    · exact .pure ⟨row.toLine, rfl⟩
  · exact .pure ⟨row.toLine, rfl⟩

theorem relined_fixInserted? (last : Nat) (blank : Cell) (row : Row) :
    Ensures (fixInserted? last blank row) (Relined row) := by
  refine .bind_some fun cell _ => ?_
  split
  · exact relined_set? row last blank
  · split
    · exact relined_blankContinuation? last blank row
    · exact .pure ⟨row.toLine, rfl⟩

theorem carries_editRow? (g : Grid) {x y n : Nat} {shift mend : Row → Option Row} (hy : y < g.rows)
    (hshift : ∀ row, Ensures (shift row) (Relined row))
    (hmend : ∀ row, Ensures (mend row) (Relined row)) {alt : Bool} :
    Ensures (editRow? g x y n shift mend) (g.Carries alt none) := by
  have hmodify : ∀ (g : Grid) {f : Row → Option Row}, (∀ row, Ensures (f row) (Relined row)) →
      Ensures (g.modifyRow? y f) (Grid.Redraws false y g) := by
    intro g f hf
    refine Grid.redraws_modifyRow? fun row row' h => ?_
    obtain ⟨line, rfl⟩ := hf row row' h
    exact ⟨line, rfl, by simp⟩
  unfold editRow? Grid.prepareAddressedWrite?
  refine .bind (Q := fun g₂ => ∀ g', Grid.Redraws false y g₂ g' → g.Carries alt none g') ?_
    fun g₂ h => ?_
  · refine .bind (Q := fun g₁ => ∀ g', Grid.Redraws false y g₁ g' → g.Carries alt none g')
      (Grid.carries_write hy) fun g₁ h => .pure ?_
    rintro g' ⟨line, hlen, rfl⟩
    exact (h _ ⟨line, hlen, rfl⟩).trans (.of_cells rfl (fun _ => rfl) rfl rfl rfl (by simp))
  · refine .bind (Grid.redraws_fixupWideCharAt? false g₂ x y) fun g₃ h₃ => ?_
    refine .bind (Q := Grid.Redraws false y g₂) (.times h₃ fun g₄ h₄ => ?_) fun g₅ h₅ => ?_
    · exact (hmodify g₄ hshift).mono fun _ h => h₄.trans h
    · exact (hmodify g₅ hmend).mono fun g' h' => h g' (h₅.trans h')

theorem carries_csiDeleteCharacter? (t : Terminal) (n : Nat) :
    Ensures (t.csiDeleteCharacter? n) (t.Carries none) := by
  refine carries_blank fun blank t => ?_
  dsimp only
  split
  next hy =>
    exact carries_withGrid? (carries_editRow? t.grid hy (relined_deleteCell? _ blank)
      (relined_fixDeleted? _ _ blank))
  next => exact .pure (.refl ..)

theorem carries_csiInsertCharacter? (t : Terminal) (n : Nat) :
    Ensures (t.csiInsertCharacter? n) (t.Carries none) := by
  refine carries_blank fun blank t => ?_
  dsimp only
  split
  next hy =>
    exact carries_withGrid? (carries_editRow? t.grid hy (relined_insertCell? _ blank)
      (relined_fixInserted? _ blank))
  next => exact .pure (.refl ..)

theorem carries_times {body : Terminal → Option Terminal} (n : Nat)
    (hbody : ∀ t, Ensures (body t) (Carries stream t)) (t : Terminal) :
    Ensures (times n body t) (t.Carries stream) :=
  .times (.refl ..) fun t₁ h => (hbody t₁).mono fun _ h' => h.trans h'

theorem carries_shiftRows? (g : Grid) (n out into y bottom : Nat) (blank : Cell) {alt : Bool} :
    Ensures (shiftRows? g n out into y bottom blank) (g.Carries alt stream) := by
  refine .times (.refl ..) fun g₁ h => ?_
  split
  · exact (Grid.carries_shiftRow g₁ out into blank).mono fun _ h' => h.trans h'
  · exact .pure h

theorem carries_csiDeleteLines? (t : Terminal) (n : Nat) :
    Ensures (t.csiDeleteLines? n) (t.Carries stream) := by
  refine carries_blank fun blank t => ?_
  dsimp only
  split
  · exact (carries_withGrid? (carries_shiftRows? _ _ _ _ _ _ blank)).mono fun _ h =>
      (carries_withGrid (t.grid.carries_setWrapPending false)).trans h
  · exact .pure (.refl ..)

theorem carries_csiInsertLines? (t : Terminal) (n : Nat) :
    Ensures (t.csiInsertLines? n) (t.Carries stream) := by
  refine carries_blank fun blank t => ?_
  dsimp only
  split
  · exact (carries_withGrid? (carries_shiftRows? _ _ _ _ _ _ blank)).mono fun _ h =>
      (carries_withGrid (t.grid.carries_setWrapPending false)).trans h
  · exact .pure (.refl ..)

theorem carries_csiSetScrollingRegion (t : Terminal) (top bottom : Nat) :
    t.Carries stream (t.csiSetScrollingRegion top bottom) := by
  unfold csiSetScrollingRegion
  split
  · exact t.carries_moveCursor _
  · exact .refl ..

theorem carries_csiWindow? (t : Terminal) (cmd scope : Nat) :
    Ensures (t.csiWindow? cmd scope) (t.Carries stream) := by
  unfold csiWindow?
  split
  · split
    · exact .bind_some fun _ _ => .pure (carries_withState rfl rfl)
    · split
      · split
        · exact .pure (carries_withState rfl rfl)
        · exact .pure (.refl ..)
      · exact .pure (.refl ..)
  · exact .pure (.refl ..)

theorem carries_oscDispatch? (t : Terminal) (params : List Bytes) (bell : Bool) :
    Ensures (t.oscDispatch? params bell) (t.Carries stream) := by
  unfold oscDispatch?
  split
  · exact .pure (.refl ..)
  · split
    all_goals first
      | exact .pure (carries_withState rfl rfl)
      | exact .pure (t.carries_pushPassthrough _)
      | skip
    all_goals
      split
      · dsimp only
        split <;>
          · refine .bind_some fun title _ => ?_
            exact .pure (carries_withState rfl rfl)
      · exact .pure (.refl ..)

theorem carries_alignmentPattern? (t : Terminal) :
    Ensures t.alignmentPattern? (t.Carries none) := by
  unfold alignmentPattern?
  have horigin : t.Carries none (t.withGrid fun g =>
      { g.withFrame (·.resetScrollRegion) with cursorX := 0, cursorY := 0 }.setWrapPending false) :=
    carries_withGrid ((t.grid.carries_withFrame fun f =>
      { f.resetScrollRegion with cursorX := 0, cursorY := 0 }).trans (Grid.carries_setWrapPending _ false))
  refine .bind (Q := fun r => t.Carries none r.2)
    ((carries_internWithGc? _ _).mono fun r h => horigin.trans h) fun r hr => ?_
  refine .bind (Q := r.2.grid.Carries t.state.inAltScreen none) (.foldlM (.refl ..) fun g y _ h => ?_)
    fun g h => .pure ⟨hr.grid.trans h, hr.saved, hr.alt⟩
  refine .foldlM h fun g x _ h => ?_
  exact (g.carries_setCell? false x y _).mono fun _ h' => h.trans h'

/-! ### The full reset -/

theorem scrollbackLen_clearScrollback? (g : Grid) :
    Ensures g.clearScrollback? (·.scrollbackLen = 0) := by
  unfold Grid.clearScrollback?
  exact .bind_some fun _ _ => .pure rfl

theorem keeps_alone (hlinks : (edges none).Inherits t.savedRows.head? (t.grid.seam t.state.inAltScreen)
      t.grid.cells none t'.grid.cells)
    (hids : ∀ saved, t.grid.IdsOk saved → t'.grid.IdsOk saved)
    (hedge : t'.grid.nextEdgeId = t.grid.nextEdgeId) (hdomain : t'.grid.inAltDomain = false)
    (hsaved : t'.state.savedGrid = none) (halt : t'.state.inAltScreen = false) : Keeps none t t' := by
  have hrows : t'.savedRows = [] := by
    rw [savedRows, hsaved]
    rfl
  have hseam : t'.grid.seam t'.state.inAltScreen = none := by
    rw [halt]
    rfl
  refine ⟨fun ht => ⟨hdomain.trans halt.symm, ?_, ?_, ?_, ?_, ?_⟩, fun ht s' e u' hj => ?_, hedge⟩
  · rw [hsaved, halt]
    rfl
  · rw [hrows]
    exact (hids _ ht.ids).forget
  · rw [hseam, hrows]
    intro i s' e hs' he
    obtain ⟨u, hu, hnames⟩ := hlinks.linked ht.continued i s' e hs' he
    rw [behind_none] at hu ⊢
    exact ⟨u, hu, hnames⟩
  · rw [hrows]
    exact fun i s e hs => by simp at hs
  · rw [hrows, List.append_nil, hedge]
    intro row hrow edge he
    obtain ⟨row', hrow', he'⟩ := mem_of_inherits hlinks hrow he
    exact ht.issued row' (List.mem_append_left _ hrow') edge he'
  · cases hj with
    | active i hs he hu =>
        rw [hseam, behind_none] at hu
        exact ht.joins_of_inherits hlinks hs he (by rwa [behind_none])
    | saved i hs => simp [hrows] at hs

/-- What is set aside is dropped with the history that ran on into it. -/
theorem keeps_fullReset? (t : Terminal) : Ensures t.fullReset? (Keeps none t) := by
  unfold fullReset?
  refine .bind_some fun g₁ herase => .bind_some fun g₂ hclear => .pure ?_
  have hcarries : (resetGrid t.grid t.mainLimit).Carries t.state.inAltScreen none g₂ :=
    (Grid.carries_eraseRows? _ _ _ _ g₁ herase).trans (g₁.carries_clearScrollback? g₂ hclear)
  have hstate : Carries none { t with state := t.state.reset }
      { t with state := t.state.reset.pushPassthrough (ascii "\x1b[3J") } :=
    carries_pushPassthrough { t with state := t.state.reset } _
  refine keeps_alone ?_ (fun saved h => hcarries.ids saved ⟨h.nodup, h.issued⟩) hcarries.edgeId
    hcarries.domain hstate.saved hstate.alt
  -- there is no history any more that could run on elsewhere
  intro i s' e hs' he
  obtain ⟨j, s, hs, hes, hsame, hbehind⟩ := hcarries.links t.savedRows.head? i s' e hs' he
  refine ⟨j, s, hs, hes, hsame, fun u hu hnames => ?_⟩
  obtain ⟨u', hu', hkept⟩ := hbehind u hu hnames
  refine ⟨u', ?_, hkept⟩
  rw [behind_of_ne] at hu'
  · rwa [behind_none]
  · intro hseam
    have := (Grid.eq_of_mem_seam hseam).2
    rw [scrollbackLen_clearScrollback? g₁ g₂ hclear] at this
    omega

end Terminal

end QuorumDispatch.Screen
