import QuorumDispatch.Screen.ProvenanceTerminal

/-!
The edges of the main screen across a visit to the alternate one. Its visible rows are
set aside behind the history, and come back behind it: an edge stays if they come back at
the width that they had.
-/

namespace QuorumDispatch.Screen

open Lib

/-! ### Widths -/

namespace Grid

variable {g g' g'' : Grid}

/-- The edges of the visible rows, and those into them, are at the width of the grid. -/
def AtWidth (g : Grid) : Prop :=
  ∀ (i : Nat) (s : Row) (e : WrapEdge), g.cells[i]? = some s → s.outgoing = some e →
    g.scrollbackLen ≤ i + 1 → e.validWidth = g.cols

structure StaysPut (g g' : Grid) : Prop where
  boundary : g'.scrollbackLen = g.scrollbackLen
  cols : g'.cols = g.cols
  edges : ∀ (i : Nat) (s' : Row) (e : WrapEdge), g'.cells[i]? = some s' → s'.outgoing = some e →
    ∃ s, g.cells[i]? = some s ∧ s.outgoing = some e

theorem StaysPut.refl (g : Grid) : StaysPut g g :=
  ⟨rfl, rfl, fun _ s _ hs he => ⟨s, hs, he⟩⟩

theorem StaysPut.trans (h : StaysPut g g') (h' : StaysPut g' g'') : StaysPut g g'' where
  boundary := h'.boundary.trans h.boundary
  cols := h'.cols.trans h.cols
  edges i s'' e hs'' he'' := by
    obtain ⟨s', hs', he'⟩ := h'.edges i s'' e hs'' he''
    exact h.edges i s' e hs' he'

theorem AtWidth.staysPut (h : g.AtWidth) (hput : StaysPut g g') : g'.AtWidth := by
  intro i s' e hs' he' hi
  obtain ⟨s, hs, he⟩ := hput.edges i s' e hs' he'
  rw [hput.cols]
  exact h i s e hs he (hput.boundary ▸ hi)

theorem staysPut_severIds (g : Grid) (doomed : List Nat) : StaysPut g (g.severIds doomed) := by
  refine ⟨rfl, rfl, fun i s' e hs' he' => ?_⟩
  rw [getElem?_severIds] at hs'
  obtain ⟨s, hs, rfl⟩ := Option.map_eq_some_iff.mp hs'
  exact ⟨s, hs, (severedRow_outgoing he').1 ▸ he'⟩

theorem staysPut_popRow (g : Grid) : StaysPut g g.popRow := by
  have hdrop : ∀ g : Grid, StaysPut g { g with cells := g.cells.dropLast } := by
    refine fun g => ⟨rfl, rfl, fun i s' e hs' he' => ⟨s', ?_, he'⟩⟩
    rw [List.getElem?_dropLast] at hs'
    split_ifs at hs'
    exact hs'
  unfold popRow
  dsimp only
  split
  · exact (g.staysPut_severIds _).trans (hdrop _)
  · exact hdrop g

theorem staysPut_pushBlank (g : Grid) : StaysPut g g.pushBlank := by
  refine ⟨rfl, rfl, fun i s' e hs' he' => ⟨s', ?_, he'⟩⟩
  have hcells : g.pushBlank.cells = g.cells ++ [(g.freshRow (List.replicate g.cols {})).1] := rfl
  rw [hcells] at hs'
  refine getElem?_of_snoc hs' fun hi => ?_
  rw [hi, List.getElem?_concat_length] at hs'
  cases hs'
  cases he'

theorem staysPut_iterate {f : Grid → Grid} (hf : ∀ g, StaysPut g (f g)) (n : Nat) (g : Grid) :
    StaysPut g (Nat.iterate f n g) := by
  induction n generalizing g with
  | zero => exact .refl g
  | succ n ih =>
      rw [Function.iterate_succ_apply]
      exact (hf g).trans (ih (f g))

theorem staysPut_validateAllEdges (g : Grid) : StaysPut g g.validateAllEdges := by
  refine ⟨rfl, rfl, fun i s' e hs' he' => ?_⟩
  rw [getElem?_validateAllEdges] at hs'
  obtain ⟨s, hs, rfl⟩ := Option.map_eq_some_iff.mp hs'
  exact ⟨s, hs, (validRow_outgoing he').1 ▸ he'⟩

theorem staysPut_adjustVisibleToFit (g : Grid) : StaysPut g g.adjustVisibleToFit :=
  ((staysPut_iterate staysPut_popRow _ g).trans (staysPut_iterate staysPut_pushBlank _ _)).trans
    (staysPut_validateAllEdges _)

def fitRow (g : Grid) (k i : Nat) (row : Row) : Row :=
  if k = i then row.withLine fun line => (line.fixWideCharOrphanAtBoundary g.cols).resize g.cols {}
  else row

@[simp] theorem outgoing_fitRow (g : Grid) (k i : Nat) (row : Row) :
    (g.fitRow k i row).outgoing = row.outgoing := by
  unfold fitRow
  split_ifs <;> rfl

theorem fitRow_self {k i : Nat} {row : Row} (h : k = i → row.len = g.cols) :
    g.fitRow k i row = row := by
  unfold fitRow
  split_ifs with hi
  · exact congrArg (fun line => { row with toLine := line }) (Line.resize_own_width (h hi) {})
  · rfl

/-- Fitting a visible row to the width does not change it if it has an edge or is named by one. -/
theorem carries_fitRow (hwidth : g.AtWidth) (hcont : Continued none none g.cells) (y : Nat) :
    Ensures (g.modifyRow? y fun row => some (row.withLine fun line =>
        (line.fixWideCharOrphanAtBoundary g.cols).resize g.cols {}))
      fun g' => Carries false none g g' ∧ g'.AtWidth ∧ Continued none none g'.cells := by
  refine .bind_some fun row hrow => .bind_some fun row' hrow' => .pure ?_
  cases hrow'
  have hcells : ∀ i, (g.cells.set (g.scrollbackLen + y) (row.withLine fun line =>
      (line.fixWideCharOrphanAtBoundary g.cols).resize g.cols {}))[i]? =
        g.cells[i]?.map (g.fitRow (g.scrollbackLen + y) i) := by
    intro i
    rw [List.getElem?_set]
    unfold fitRow
    split_ifs with hi hlt
    · rw [← hi, show g.cells[g.scrollbackLen + y]? = some row from hrow]
      rfl
    · rw [← hi, show g.cells[g.scrollbackLen + y]? = some row from hrow] at *
      exact absurd (List.getElem?_eq_some_iff.mp hrow).1 hlt
    · rw [Option.map_id']
  have hlinks : ∀ head, (edges none).Inherits head none g.cells none
      (g.cells.set (g.scrollbackLen + y) (row.withLine fun line =>
        (line.fixWideCharOrphanAtBoundary g.cols).resize g.cols {})) := by
    refine fun head => .of_map _ hcells fun i s e hs he => ?_
    change Row.outgoing _ = some e at he
    rw [outgoing_fitRow] at he
    obtain ⟨u, hu, hnames⟩ := hcont i s e hs he
    refine ⟨he, ?_, fun _ u' hu' _ => ?_⟩
    · rw [fitRow_self fun hi => ?_]
      · exact (edges none).same_refl s
      · exact hnames.source_len.trans (hwidth i s e hs he (by omega))
    · rw [behind_none] at hu
      cases hu.symm.trans hu'
      rw [fitRow_self fun hi => hnames.target_len.trans (hwidth i s e hs he (by omega))]
      exact (edges none).kept_of_same rfl
  refine ⟨.of_map _ hcells (fun i r => ?_) hlinks (by simp) rfl rfl rfl fun _ h => h, ?_,
    (hlinks none).linked hcont⟩
  · unfold fitRow
    split_ifs <;> rfl
  · intro i s' e hs' he' hi
    rw [hcells] at hs'
    obtain ⟨s, hs, rfl⟩ := Option.map_eq_some_iff.mp hs'
    rw [outgoing_fitRow] at he'
    exact hwidth i s e hs he' hi

theorem carries_fitVisibleCols? (hwidth : g.AtWidth) (hcont : Continued none none g.cells) :
    Ensures (Terminal.fitVisibleCols? g) (Carries false none g) := by
  have hloop : Ensures (Terminal.fitVisibleCols? g) fun g' =>
      Carries false none g g' ∧ g'.AtWidth ∧ Continued none none g'.cells := by
    refine .foldlM ⟨.refl .., hwidth, hcont⟩ fun g' y _ h => ?_
    exact (carries_fitRow h.2.1 h.2.2 y).mono fun _ h' => ⟨h.1.trans h'.1, h'.2⟩
  exact hloop.mono fun _ h => h.1

end Grid

namespace Terminal

variable {t t' : Terminal}

/-! ### Entering -/

/-- The history of a main screen that is set aside runs on as it did. -/
theorem behind_take {α : Type} (l : List α) {n i : Nat} (h : i < n) :
    behind (some n) (l.drop n).head? (l.take n) i = l[i + 1]? := by
  rcases eq_or_ne n (i + 1) with rfl | hne
  · rw [behind_seam, List.head?_drop]
  · rw [behind_of_ne (by simpa using hne), List.getElem?_take_of_lt (by omega)]

def historyGrid (g : Grid) : Grid :=
  { g with cells := g.cells.take g.scrollbackLen, inAltDomain := true }

theorem keeps_setAside (hmain : t.state.inAltScreen = false) {state : ScreenState SavedGrid}
    {saved : SavedGrid} (hrows : saved.visibleCells = t.grid.cells.drop t.grid.scrollbackLen)
    (hsaved : state.savedGrid = some saved) (halt : state.inAltScreen = true) :
    Keeps none t { grid := historyGrid t.grid, state } := by
  generalize ht' : ({ grid := historyGrid t.grid, state } : Terminal) = t'
  have hcells : t'.grid.cells = t.grid.cells.take t.grid.scrollbackLen := by
    rw [← ht']
    rfl
  have hseam : t.grid.seam t.state.inAltScreen = none := by
    rw [hmain]
    rfl
  have hseam' : t'.grid.seam t'.state.inAltScreen = some t.grid.scrollbackLen := by
    rw [← ht', halt]
    rfl
  have hrows' : t'.savedRows = t.grid.cells.drop t.grid.scrollbackLen := by
    rw [← ht', savedRows, hsaved, ← hrows]
    rfl
  have hrow : t'.grid.nextRowId = t.grid.nextRowId := by
    rw [← ht']
    rfl
  have hedge : t'.grid.nextEdgeId = t.grid.nextEdgeId := by
    rw [← ht']
    rfl
  have hlt : ∀ {i s}, (t.grid.cells.take t.grid.scrollbackLen)[i]? = some s →
      i < t.grid.scrollbackLen ∧ t.grid.cells[i]? = some s := by
    intro i s h
    have hi := (List.getElem?_eq_some_iff.mp h).1
    rw [List.length_take] at hi
    rw [List.getElem?_take_of_lt (by omega)] at h
    exact ⟨by omega, h⟩
  refine ⟨fun ht => ⟨by rw [← ht', halt]; rfl, by rw [← ht', hsaved, halt]; rfl, ?_, ?_, ?_, ?_⟩,
    fun ht s' e u' hj => ?_, hedge⟩
  · have hids := ht.ids.forget
    refine ⟨?_, ?_⟩
    · rw [hcells, hrows', List.take_append_drop]
      simpa using hids.nodup
    · rw [hcells, hrows', List.take_append_drop, hrow]
      simpa using hids.issued
  · rw [hseam', hrows', hcells]
    intro i s e hs he
    obtain ⟨hi, hs⟩ := hlt hs
    rw [behind_take _ hi]
    obtain ⟨u, hu, hnames⟩ := ht.continued i s e hs he
    rw [hseam, behind_none] at hu
    exact ⟨u, hu, hnames⟩
  · rw [hrows']
    intro i s e hs he
    rw [List.getElem?_drop] at hs
    obtain ⟨u, hu, hnames⟩ := ht.continued _ s e hs he
    rw [hseam, behind_none] at hu
    rw [behind_none, List.getElem?_drop]
    exact ⟨u, hu, hnames⟩
  · rw [hcells, hrows', List.take_append_drop, hedge]
    exact fun row hrow => ht.issued row (List.mem_append_left _ hrow)
  · have hjoins : ∀ {i}, t.grid.cells[i]? = some s' → s'.outgoing = some e →
        t.grid.cells[i + 1]? = some u' → ∃ s u, t.Joins s e u ∧ s.Same s' ∧ s.Kept none u u' := by
      intro i hs he hu
      refine ⟨s', u', .active i hs he ?_, rfl, (edges none).kept_of_same rfl⟩
      rwa [hseam, behind_none]
    cases hj with
    | active i hs he hu =>
        rw [hcells] at hs
        obtain ⟨hi, hs⟩ := hlt hs
        rw [hseam', hrows', hcells, behind_take _ hi] at hu
        exact hjoins hs he hu
    | saved i hs he hu =>
        rw [hrows', List.getElem?_drop] at hs hu
        exact hjoins hs he hu

theorem iterate_pushBlank_domain (g : Grid) (n : Nat) :
    { Nat.iterate Grid.pushBlank n g with inAltDomain := true } =
      Nat.iterate Grid.pushBlank n { g with inAltDomain := true } := by
  induction n generalizing g with
  | zero => rfl
  | succ n ih =>
      rw [Function.iterate_succ_apply, Function.iterate_succ_apply, ih]
      rfl

theorem keeps_suspendMain? (hmain : t.state.inAltScreen = false) (altEpoch : Option Nat)
    (enteredWith1049 : Bool) :
    Ensures (t.suspendMain? altEpoch enteredWith1049) (Keeps none t) := by
  refine .bind_some fun r hdrain => .pure ?_
  obtain ⟨hle, hr⟩ := guard_bind_eq_some.mp hdrain
  cases hr
  dsimp only
  generalize hstate : ({ t.state with
    savedGrid := some _, savedScrollRegion := _, savedModes := _, inAltScreen := true } :
      ScreenState SavedGrid) = state
  refine (keeps_setAside hmain rfl (congrArg ScreenState.savedGrid hstate.symm)
    (congrArg ScreenState.inAltScreen hstate.symm)).trans (Carries.keeps ⟨?_, rfl, rfl⟩)
  rw [show state.inAltScreen = true from congrArg ScreenState.inAltScreen hstate.symm]
  have hlen : (historyGrid t.grid).scrollbackLen ≤ (historyGrid t.grid).cells.length := by
    show t.grid.scrollbackLen ≤ (t.grid.cells.take t.grid.scrollbackLen).length
    rw [List.length_take]
    omega
  have hblank : (historyGrid t.grid).Carries true none
      { t.grid with cells := t.grid.cells.take t.grid.scrollbackLen }.fillVisibleBlank := by
    refine (Grid.carries_iterate_pushBlank _ t.grid.rows fun _ => hlen).trans ?_
    have hdomain := iterate_pushBlank_domain
      { t.grid with cells := t.grid.cells.take t.grid.scrollbackLen } t.grid.rows
    rw [historyGrid, ← hdomain]
    exact .of_cells rfl (fun _ => rfl) rfl rfl rfl (by simp [Grid.fillVisibleBlank])
  refine ((hblank.trans ?_).trans (Grid.carries_withFrame _ (·.resetScrollRegion))).trans
    (Grid.carries_setWrapPending _ false)
  exact .of_cells rfl (fun _ => rfl) rfl rfl rfl fun _ h => h

theorem keeps_enterAltScreen? (t : Terminal) (saveCursor : Bool) :
    Ensures (t.enterAltScreen? saveCursor) (Keeps none t) := by
  unfold enterAltScreen?
  split
  next => exact .pure (.refl ..)
  next hmain =>
    have hepoch : t.Carries none (t.beginEpoch saveCursor) := by
      unfold beginEpoch
      dsimp only
      split_ifs
      · exact (carries_withState rfl rfl).trans (carries_saveCursor _ _ _)
      · exact carries_withState rfl rfl
    have halt : (t.beginEpoch saveCursor).state.inAltScreen = false := by
      rw [hepoch.alt]
      simpa using hmain
    exact (keeps_suspendMain? halt _ _).mono fun _ h => hepoch.keeps.trans h

/-! ### Returning -/

/-- The main screen in the order of its rows: the history, and what is set aside. -/
def mainRows (t : Terminal) : List Row := t.grid.scrollbackRows ++ t.savedRows

theorem getElem?_mainRows_of_lt (hlen : t.grid.scrollbackLen ≤ t.grid.cells.length) {i : Nat}
    (hi : i < t.grid.scrollbackLen) : t.mainRows[i]? = t.grid.cells[i]? := by
  rw [mainRows, Grid.scrollbackRows, List.getElem?_append_left (by rw [List.length_take]; omega),
    List.getElem?_take_of_lt hi]

theorem getElem?_mainRows_of_le (hlen : t.grid.scrollbackLen ≤ t.grid.cells.length) {i : Nat}
    (hi : t.grid.scrollbackLen ≤ i) :
    t.mainRows[i]? = t.savedRows[i - t.grid.scrollbackLen]? := by
  rw [mainRows, Grid.scrollbackRows, List.getElem?_append_right (by rw [List.length_take]; omega),
    List.length_take, Nat.min_eq_left hlen]

theorem behind_history (halt : t.state.inAltScreen = true)
    (hlen : t.grid.scrollbackLen ≤ t.grid.cells.length) {i : Nat} (hi : i < t.grid.scrollbackLen) :
    behind (t.grid.seam t.state.inAltScreen) t.savedRows.head? t.grid.cells i = t.mainRows[i + 1]? := by
  rw [halt, Grid.seam, if_pos rfl]
  rcases eq_or_ne t.grid.scrollbackLen (i + 1) with hseam | hne
  · rw [hseam, behind_seam, getElem?_mainRows_of_le hlen hseam.le, hseam, Nat.sub_self,
      List.head?_eq_getElem?]
  · rw [behind_of_ne (by simpa using hne), getElem?_mainRows_of_lt hlen (by omega)]

theorem Joins.of_mainRows (halt : t.state.inAltScreen = true)
    (hlen : t.grid.scrollbackLen ≤ t.grid.cells.length) {i : Nat} {s u : Row} {e : WrapEdge}
    (hs : t.mainRows[i]? = some s) (he : s.outgoing = some e) (hu : t.mainRows[i + 1]? = some u) :
    t.Joins s e u := by
  rcases lt_or_ge i t.grid.scrollbackLen with hi | hi
  · rw [getElem?_mainRows_of_lt hlen hi] at hs
    exact .active i hs he ((behind_history halt hlen hi).trans hu)
  · rw [getElem?_mainRows_of_le hlen hi] at hs
    rw [getElem?_mainRows_of_le hlen (by omega)] at hu
    exact .saved _ hs he (by rwa [show i - t.grid.scrollbackLen + 1 = i + 1 - t.grid.scrollbackLen by omega])

theorem Sound.mainRows (h : t.Sound) (halt : t.state.inAltScreen = true)
    (hlen : t.grid.scrollbackLen ≤ t.grid.cells.length) : Continued none none t.mainRows := by
  intro i s e hs he
  rw [behind_none]
  rcases lt_or_ge i t.grid.scrollbackLen with hi | hi
  · rw [getElem?_mainRows_of_lt hlen hi] at hs
    rw [← behind_history halt hlen hi]
    exact h.continued i s e hs he
  · rw [getElem?_mainRows_of_le hlen hi] at hs
    obtain ⟨u, hu, hnames⟩ := h.savedContinued _ s e hs he
    rw [behind_none] at hu
    refine ⟨u, ?_, hnames⟩
    rwa [getElem?_mainRows_of_le hlen (by omega),
      show i + 1 - t.grid.scrollbackLen = i - t.grid.scrollbackLen + 1 by omega]

theorem mem_of_mem_mainRows {row : Row} (h : row ∈ t.mainRows) : row ∈ t.grid.cells ++ t.savedRows := by
  rcases List.mem_append.mp h with h | h
  · exact List.mem_append_left _ (List.mem_of_mem_take h)
  · exact List.mem_append_right _ h

theorem keeps_return (halt : t.state.inAltScreen = true)
    (hlen : t.grid.scrollbackLen ≤ t.grid.cells.length)
    (hlinks : t.Sound → (edges none).Inherits none none t.mainRows none t'.grid.cells)
    (hids : (rowIds t'.grid.cells).Sublist (rowIds t.mainRows))
    (hrow : t'.grid.nextRowId = t.grid.nextRowId) (hedge : t'.grid.nextEdgeId = t.grid.nextEdgeId)
    (hdomain : t'.grid.inAltDomain = false) (hsaved : t'.state.savedGrid = none)
    (halt' : t'.state.inAltScreen = false) : Keeps none t t' := by
  have hrows : t'.savedRows = [] := by
    rw [savedRows, hsaved]
    rfl
  have hseam : t'.grid.seam t'.state.inAltScreen = none := by
    rw [halt']
    rfl
  refine ⟨fun ht => ⟨hdomain.trans halt'.symm, ?_, ?_, ?_, ?_, ?_⟩, fun ht s' e u' hj => ?_, hedge⟩
  · rw [hsaved, halt']
    rfl
  · rw [hrows]
    have hsub : (rowIds (t'.grid.cells ++ [])).Sublist (rowIds (t.grid.cells ++ t.savedRows)) := by
      rw [List.append_nil]
      exact hids.trans (((List.take_sublist _ _).append (.refl _)).filterMap _)
    refine ⟨ht.ids.nodup.sublist hsub, fun id hid next hnext => ?_⟩
    exact ht.ids.issued id (hsub.subset hid) next (hrow ▸ hnext)
  · rw [hseam, hrows]
    intro i s e hs he
    obtain ⟨u, hu, hnames⟩ := (hlinks ht).linked (ht.mainRows halt hlen) i s e hs he
    rw [behind_none] at hu ⊢
    exact ⟨u, hu, hnames⟩
  · rw [hrows]
    exact fun i s e hs => by simp at hs
  · rw [hrows, List.append_nil, hedge]
    intro row hmem edge he
    obtain ⟨row', hrow', he'⟩ := mem_of_inherits (hlinks ht) hmem he
    exact ht.issued row' (mem_of_mem_mainRows hrow') edge he'
  · cases hj with
    | active i hs he hu =>
        rw [hseam, behind_none] at hu
        obtain ⟨j, s, hs, hes, hsame, hbehind⟩ := hlinks ht i s' e hs he
        obtain ⟨u, hmain, hnames⟩ := ht.mainRows halt hlen j s e hs hes
        obtain ⟨u'', hu'', hkept⟩ := hbehind u hmain hnames
        rw [behind_none] at hu'' hmain
        cases hu''.symm.trans hu
        exact ⟨s, u, .of_mainRows halt hlen hs hes hmain, hsame, hkept⟩
    | saved i hs => simp [hrows] at hs

def restoredRow (affected : List Nat) (widthChanged : Bool) (row : Row) : Row :=
  if widthChanged then (Grid.severedRow affected row).advanceRevision else Grid.severedRow affected row

theorem prepareAltRestore_eq (g : Grid) (saved : SavedGrid) :
    ∃ affected, (g.prepareAltRestore saved).1 = (g.cols != saved.saveCols) ∧
      (g.prepareAltRestore saved).2.2.1.visibleCells =
        saved.visibleCells.map (restoredRow affected (g.cols != saved.saveCols)) ∧
      (g.prepareAltRestore saved).2.2.1.scrollbackLimit = saved.scrollbackLimit ∧
      (g.prepareAltRestore saved).2.2.2 = g.severIds affected ∧
      (g.cols ≠ saved.saveCols → affected = rowIds saved.visibleCells) := by
  refine ⟨_, rfl, List.map_congr_left fun row _ => ?_, rfl, rfl, fun hne => ?_⟩
  · rw [restoredRow, Grid.severedRow, Bool.or_comm]
  · rw [if_pos (by simpa using hne)]
    rfl

/-- The row at `i` of the main screen, whose history has length `n`, when it returns. -/
def returnedRow (n : Nat) (affected : List Nat) (widthChanged : Bool) (i : Nat) (row : Row) : Row :=
  if i < n then Grid.severedRow affected row else restoredRow affected widthChanged row

theorem rowId_returnedRow (n : Nat) (affected : List Nat) (widthChanged : Bool) (i : Nat) (row : Row) :
    (returnedRow n affected widthChanged i row).rowId = row.rowId := by
  unfold returnedRow restoredRow
  split_ifs
  · exact (Grid.same_severedRow affected row).rowId
  · exact (Grid.same_severedRow affected row).rowId
  · exact (Grid.same_severedRow affected row).rowId

theorem same_returnedRow {n i : Nat} {widthChanged : Bool} (h : i < n ∨ widthChanged = false)
    (affected : List Nat) (row : Row) : row.Same (returnedRow n affected widthChanged i row) := by
  unfold returnedRow restoredRow
  split_ifs with hi hwidth
  · exact Grid.same_severedRow affected row
  · simp [hi, hwidth] at h
  · exact Grid.same_severedRow affected row

theorem returnedRow_outgoing {n i : Nat} {affected : List Nat} {widthChanged : Bool} {row : Row}
    {edge : WrapEdge} (h : (returnedRow n affected widthChanged i row).outgoing = some edge) :
    row.outgoing = some edge ∧ edge.target ∉ affected ∧
      ∀ id, row.rowId = some id → id ∉ affected := by
  have hsevered : (Grid.severedRow affected row).outgoing = some edge := by
    unfold returnedRow restoredRow at h
    split_ifs at h <;> exact h
  obtain ⟨hself, htarget, hid⟩ := Grid.severedRow_outgoing hsevered
  exact ⟨hself ▸ hsevered, htarget, hid⟩

/-- The main screen back in its place, before it is made to fit. -/
def returnedGrid (g : Grid) (saved : SavedGrid) : Grid :=
  ((g.prepareAltRestore saved).2.2.2.replaceVisible
    (g.prepareAltRestore saved).2.2.1.visibleCells).withFrame
      fun f => { f with scrollbackLimit := (g.prepareAltRestore saved).2.2.1.scrollbackLimit }

theorem returnedGrid_cells (hlen : t.grid.scrollbackLen ≤ t.grid.cells.length) {saved : SavedGrid}
    (hsaved : t.state.savedGrid = some saved) :
    ∃ affected, (∀ i, (returnedGrid { t.grid with inAltDomain := false } saved).cells[i]? =
        t.mainRows[i]?.map
          (returnedRow t.grid.scrollbackLen affected (t.grid.cols != saved.saveCols) i)) ∧
      (t.grid.cols ≠ saved.saveCols → affected = rowIds t.savedRows) := by
  obtain ⟨affected, -, hrows, -, hgrid, haffected⟩ :=
    prepareAltRestore_eq { t.grid with inAltDomain := false } saved
  have hsavedRows : t.savedRows = saved.visibleCells := by
    rw [savedRows, hsaved]
    rfl
  refine ⟨affected, fun i => ?_, fun hne => by rw [hsavedRows, ← haffected hne]⟩
  have hcells : (returnedGrid { t.grid with inAltDomain := false } saved).cells =
      (t.grid.cells.map (Grid.severedRow affected)).take t.grid.scrollbackLen ++
        saved.visibleCells.map (restoredRow affected (t.grid.cols != saved.saveCols)) := by
    show (Grid.replaceVisible _ _).cells = _
    rw [hgrid, hrows]
    rfl
  rw [hcells, ← List.map_take]
  rcases lt_or_ge i t.grid.scrollbackLen with hi | hi
  · rw [getElem?_mainRows_of_lt hlen hi, List.getElem?_append_left (by
      rw [List.length_map, List.length_take]; omega), List.getElem?_map, List.getElem?_take_of_lt hi]
    congr 1
    exact funext fun row => (if_pos hi).symm
  · rw [getElem?_mainRows_of_le hlen hi, List.getElem?_append_right (by
      rw [List.length_map, List.length_take]; omega), List.getElem?_map, List.length_map,
      List.length_take, Nat.min_eq_left hlen, hsavedRows]
    congr 1
    exact funext fun row => (if_neg (Nat.not_lt.mpr hi)).symm

theorem width_of_unaffected (hlen : t.grid.scrollbackLen ≤ t.grid.cells.length) {saved : SavedGrid}
    {affected : List Nat} (haffected : t.grid.cols ≠ saved.saveCols → affected = rowIds t.savedRows)
    {i id : Nat} {row : Row} (hrow : t.mainRows[i]? = some row) (hid : row.rowId = some id)
    (hnot : id ∉ affected) : i < t.grid.scrollbackLen ∨ t.grid.cols = saved.saveCols := by
  by_contra hcon
  rw [not_or, not_lt] at hcon
  rw [getElem?_mainRows_of_le hlen hcon.1] at hrow
  rw [haffected hcon.2] at hnot
  exact hnot (List.mem_filterMap.mpr ⟨row, List.mem_of_getElem? hrow, hid⟩)

/-- An edge that comes back leads from and to where it did. -/
theorem returnedGrid_links (ht : t.Sound) (halt : t.state.inAltScreen = true)
    (hlen : t.grid.scrollbackLen ≤ t.grid.cells.length) {saved : SavedGrid}
    (hsaved : t.state.savedGrid = some saved) :
    (edges none).Inherits none none t.mainRows none
      (returnedGrid { t.grid with inAltDomain := false } saved).cells := by
  obtain ⟨affected, hcells, haffected⟩ := returnedGrid_cells hlen hsaved
  have hsame : ∀ {i id : Nat} {row : Row}, t.mainRows[i]? = some row → row.rowId = some id →
      id ∉ affected →
      row.Same (returnedRow t.grid.scrollbackLen affected (t.grid.cols != saved.saveCols) i row) := by
    intro i id row hrow hid hnot
    refine same_returnedRow ?_ affected row
    exact (width_of_unaffected hlen haffected hrow hid hnot).imp_right fun h => by simp [h]
  refine .of_map _ hcells fun i s e hs he => ?_
  obtain ⟨hes, htarget, hid⟩ := returnedRow_outgoing he
  obtain ⟨u, hu, hnames⟩ := ht.mainRows halt hlen i s e hs hes
  obtain ⟨id, hsource⟩ := Option.isSome_iff_exists.mp hnames.source_id
  refine ⟨hes, hsame hs hsource (hid id hsource), fun _ u' hu' _ => ?_⟩
  rw [behind_none] at hu
  cases hu.symm.trans hu'
  exact (edges none).kept_of_same (hsame hu hnames.target_id htarget)

theorem returnedGrid_atWidth (ht : t.Sound) (halt : t.state.inAltScreen = true)
    (hlen : t.grid.scrollbackLen ≤ t.grid.cells.length) {saved : SavedGrid}
    (hsaved : t.state.savedGrid = some saved)
    (hcols : ∀ row ∈ saved.visibleCells, row.len = saved.saveCols) :
    (returnedGrid { t.grid with inAltDomain := false } saved).AtWidth := by
  obtain ⟨affected, hcells, haffected⟩ := returnedGrid_cells hlen hsaved
  intro i s' e hs' he hi
  have hi : t.grid.scrollbackLen ≤ i + 1 := hi
  rw [hcells] at hs'
  obtain ⟨s, hs, rfl⟩ := Option.map_eq_some_iff.mp hs'
  obtain ⟨hes, htarget, -⟩ := returnedRow_outgoing he
  obtain ⟨u, hu, hnames⟩ := ht.mainRows halt hlen i s e hs hes
  rw [behind_none] at hu
  have hwidth : t.grid.cols = saved.saveCols :=
    (width_of_unaffected hlen haffected hu hnames.target_id htarget).resolve_left (by omega)
  rw [getElem?_mainRows_of_le hlen hi, savedRows, hsaved] at hu
  have hlen := hcols u (List.mem_of_getElem? hu)
  exact hnames.target_len.symm.trans (hlen.trans hwidth.symm)

theorem rowIds_returnedGrid (hlen : t.grid.scrollbackLen ≤ t.grid.cells.length) {saved : SavedGrid}
    (hsaved : t.state.savedGrid = some saved) :
    rowIds (returnedGrid { t.grid with inAltDomain := false } saved).cells = rowIds t.mainRows := by
  obtain ⟨affected, hcells, -⟩ := returnedGrid_cells hlen hsaved
  have hmap : (returnedGrid { t.grid with inAltDomain := false } saved).cells.map Row.rowId =
      t.mainRows.map Row.rowId := by
    refine List.ext_getElem? fun i => ?_
    rw [List.getElem?_map, List.getElem?_map, hcells, Option.map_map]
    congr 1
    exact funext fun row => rowId_returnedRow _ _ _ i row
  rw [rowIds_eq, rowIds_eq, hmap]

theorem keeps_restoreSaved? (ht : t.Sound) (hgeometry : t.Geometry)
    (halt : t.state.inAltScreen = true) {saved : SavedGrid} (hsaved : t.state.savedGrid = some saved)
    (hcols : ∀ row ∈ saved.visibleCells, row.len = saved.saveCols) {state : ScreenState SavedGrid}
    (hsaved' : state.savedGrid = none) (halt' : state.inAltScreen = false) :
    Ensures (fitVisibleCols? (returnedGrid { t.grid with inAltDomain := false } saved).adjustVisibleToFit)
      fun grid => Keeps none t { grid, state } := by
  have hlen : t.grid.scrollbackLen ≤ t.grid.cells.length := by
    rw [hgeometry.cells]
    exact Nat.le_add_right _ _
  have hreturn : Keeps none t
      { grid := returnedGrid { t.grid with inAltDomain := false } saved, state } :=
    keeps_return halt hlen (fun ht => returnedGrid_links ht halt hlen hsaved)
      (by rw [rowIds_returnedGrid hlen hsaved]) rfl rfl rfl hsaved' halt'
  have hadjust : Grid.Carries false none (returnedGrid { t.grid with inAltDomain := false } saved)
      (returnedGrid { t.grid with inAltDomain := false } saved).adjustVisibleToFit :=
    Grid.carries_adjustVisibleToFit _ (by simp)
  have hcont := (hadjust.links none).linked
    ((returnedGrid_links ht halt hlen hsaved).linked (ht.mainRows halt hlen))
  have hwidth := (returnedGrid_atWidth ht halt hlen hsaved hcols).staysPut
    (Grid.staysPut_adjustVisibleToFit _)
  refine (Grid.carries_fitVisibleCols? hwidth hcont).mono fun grid hfit => ?_
  refine hreturn.trans (Carries.keeps ⟨?_, rfl, rfl⟩)
  rw [halt']
  exact hadjust.trans hfit

theorem keeps_resumeMain? (ht : t.Sound) (hgeometry : t.Geometry) (halt : t.state.inAltScreen = true) :
    Ensures t.resumeMain? fun r => Keeps none t r.1 ∧ r.1.state.inAltScreen = false := by
  obtain ⟨saved, top, bottom, hsaved, -, hcols, -⟩ := hgeometry.saved halt
  unfold resumeMain?
  rw [hsaved]
  refine .bind_some fun grid hgrid => .pure ⟨?_, rfl⟩
  have hrestored : Keeps none t
      { grid, state := { t.state with inAltScreen := false, savedGrid := none, savedModes := none } } :=
    keeps_restoreSaved? ht hgeometry halt hsaved hcols rfl rfl grid hgrid
  refine hrestored.trans (Carries.keeps ?_)
  dsimp only
  split
  · exact carries_of_rows rfl rfl rfl rfl rfl rfl rfl rfl
  · exact .refl ..

/-- Only what the next write may rely on is put back. -/
theorem keeps_authority (t : Terminal) (hdomain : t.grid.inAltDomain = false)
    (pendingWrap : Option PendingWrap) (sequentialEdge : Option SequentialEdge) :
    Keeps none t { t with
      grid := { t.grid with inAltDomain := false, pendingWrap, sequentialEdge } } := by
  refine ⟨fun ht => ⟨hdomain.symm.trans ht.domain, ht.saved, ⟨ht.ids.nodup, ht.ids.issued⟩,
    ht.continued, ht.savedContinued, ht.issued⟩,
    fun ht s' e u' hj => ⟨s', u', ?_, rfl, (edges none).kept_of_same rfl⟩, rfl⟩
  cases hj with
  | active i hs he hu => exact .active i hs he hu
  | saved i hs he hu => exact .saved i hs he hu

theorem keeps_finishRestore (t : Terminal) (hdomain : t.grid.inAltDomain = false)
    (restored : Option SavedGrid) (doRestoreCursor : Bool) :
    Keeps none t (t.finishRestore restored doRestoreCursor) := by
  unfold finishRestore
  split
  next saved =>
    generalize (doRestoreCursor && cursorMatches t.state.savedCursorState saved) = authorize
    have hauthority := t.keeps_authority hdomain (if authorize then saved.pendingWrap else none)
      (if authorize then saved.sequentialEdge else none)
    refine hauthority.trans (Carries.keeps ⟨?_, rfl, rfl⟩)
    refine ((Grid.carries_validateAllEdges _).trans ?_).trans (Grid.carries_validateAllEdges _)
    exact .of_cells rfl (fun _ => rfl) rfl rfl rfl fun _ h => h
  next => exact .refl ..

theorem carries_restoreRegion (t : Terminal) (region : Option (Nat × Nat)) :
    t.Carries none { t with grid := restoreRegion t.grid region } := by
  unfold restoreRegion
  split <;> exact carries_of_rows rfl rfl rfl rfl rfl rfl rfl rfl

theorem keeps_exitAltScreen? (ht : t.Sound) (hgeometry : t.Geometry) (doRestoreCursor : Bool) :
    Ensures (t.exitAltScreen? doRestoreCursor) (Keeps none t) := by
  unfold exitAltScreen?
  split
  next => exact .pure (.refl ..)
  next halt =>
    refine .bind (keeps_resumeMain? ht hgeometry (by simpa using halt)) ?_
    rintro ⟨t₁, geometryInvalid, restored⟩ ⟨hresume, hmain⟩
    refine .pure ?_
    dsimp only at hresume hmain ⊢
    have hcursor : t₁.Carries none
        (if doRestoreCursor then t₁.restoreCursor geometryInvalid else t₁) := by
      split_ifs
      · exact t₁.carries_restoreCursor geometryInvalid
      · exact .refl ..
    generalize (if doRestoreCursor then t₁.restoreCursor geometryInvalid else t₁) = t₂ at hcursor ⊢
    have hdomain : t₂.grid.inAltDomain = false := by
      rw [(hcursor.sound (hresume.sound ht)).domain, hcursor.alt, hmain]
    have hfinish := t₂.keeps_finishRestore hdomain restored doRestoreCursor
    generalize t₂.finishRestore restored doRestoreCursor = t₃ at hfinish ⊢
    refine (hresume.trans hcursor.keeps).trans (hfinish.trans (Carries.keeps ?_))
    exact (t₃.carries_restoreRegion t₃.state.savedScrollRegion).trans
      (carries_of_rows rfl rfl rfl rfl rfl rfl rfl rfl)

end Terminal

end QuorumDispatch.Screen
