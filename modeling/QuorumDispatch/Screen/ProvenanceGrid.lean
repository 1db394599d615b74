import QuorumDispatch.Screen.Provenance

/-!
The operations of the grid carry its provenance. What writes to a row cuts its edges
first, what removes a row cuts the edge into it, and what inserts one the edge across.
-/

namespace QuorumDispatch.Screen

open Lib

namespace Grid

variable {g g' g'' : Grid} {alt : Bool} {stream : Option SequentialEdge}

/-! ### Cuts -/

theorem carries_cutAt (g : Grid) (index : Nat) : Carries alt stream g (g.setOutgoing index none) := by
  refine .of_cuts (fun i r => if index = i then r.cut else r) (fun i => ?_) (fun i r => ?_)
    (fun _ => rfl) rfl rfl rfl fun _ h => h
  · rw [setOutgoing, List.getElem?_modify]
    rfl
  · split_ifs
    · exact .inr rfl
    · exact .inl rfl

/-- A row after its edge was cut if it is, or leads to, a doomed one. -/
def severedRow (doomed : List Nat) (row : Row) : Row :=
  if row.outgoing.any (fun edge => doomed.contains edge.target) ||
    row.rowId.any (fun id => doomed.contains id) then row.cut else row

theorem same_severedRow (doomed : List Nat) (row : Row) : row.Same (severedRow doomed row) := by
  unfold severedRow
  split_ifs <;> rfl

/-- An edge that was not cut leads neither from a doomed row nor to one. -/
theorem severedRow_outgoing {doomed : List Nat} {row : Row} {edge : WrapEdge}
    (h : (severedRow doomed row).outgoing = some edge) :
    severedRow doomed row = row ∧ edge.target ∉ doomed ∧ ∀ id, row.rowId = some id → id ∉ doomed := by
  unfold severedRow at h ⊢
  split_ifs at h ⊢ with hcut
  · cases h
  · refine ⟨rfl, fun hmem => hcut ?_, fun id hid hmem => hcut ?_⟩
    · simp [h, hmem]
    · simp [hid, hmem]

theorem getElem?_severIds (g : Grid) (doomed : List Nat) (i : Nat) :
    (g.severIds doomed).cells[i]? = g.cells[i]?.map (severedRow doomed) :=
  List.getElem?_map

theorem carries_severIds (g : Grid) (doomed : List Nat) :
    Carries alt stream g (g.severIds doomed) := by
  refine .of_cuts (fun _ => severedRow doomed) (g.getElem?_severIds doomed) (fun i r => ?_)
    (fun _ => rfl) rfl rfl rfl fun seq h => (Option.filter_eq_some_iff.mp h).1
  unfold severedRow
  split_ifs
  · exact .inr rfl
  · exact .inl rfl

def validRow (g : Grid) (i : Nat) (row : Row) : Row :=
  if row.outgoing.all (g.edgeValid i row) then row else row.cut

theorem same_validRow (g : Grid) (i : Nat) (row : Row) : row.Same (g.validRow i row) := by
  unfold validRow
  split_ifs <;> rfl

theorem validRow_outgoing {i : Nat} {row : Row} {edge : WrapEdge}
    (h : (g.validRow i row).outgoing = some edge) :
    g.validRow i row = row ∧ g.edgeValid i row edge = true := by
  unfold validRow at h ⊢
  split_ifs at h ⊢ with hall
  · exact ⟨rfl, by simpa [h] using hall⟩
  · cases h

theorem getElem?_validateAllEdges (g : Grid) (i : Nat) :
    g.validateAllEdges.cells[i]? = g.cells[i]?.map (g.validRow i) :=
  List.getElem?_mapIdx

theorem carries_validateAllEdges (g : Grid) : Carries alt stream g g.validateAllEdges := by
  refine .of_cuts g.validRow g.getElem?_validateAllEdges (fun i r => ?_) (fun _ => rfl) rfl rfl rfl
    fun seq h => (Option.filter_eq_some_iff.mp h).1
  unfold validRow
  split_ifs
  · exact .inl rfl
  · exact .inr rfl

theorem carries_invalidate (g : Grid) : Carries alt stream g g.invalidateProvenanceKeepRaw :=
  .of_cells rfl (fun _ => rfl) rfl rfl rfl (by simp [invalidateProvenanceKeepRaw])

theorem carries_setWrapPending (g : Grid) (val : Bool) :
    Carries alt stream g (g.setWrapPending val) := by
  cases val with
  | true => exact .of_cells rfl (fun _ => rfl) rfl rfl rfl fun _ h => h
  | false => exact .of_cells rfl (fun _ => rfl) rfl rfl rfl (by simp [setWrapPending])

/-- The frame has no part in the provenance. -/
theorem carries_withFrame (g : Grid) (f : Frame → Frame) : Carries alt stream g (g.withFrame f) :=
  .of_cells rfl (fun _ => rfl) rfl rfl rfl fun _ h => h

theorem carries_moveCursor (g : Grid) (f : Frame → Frame) : Carries alt stream g (g.moveCursor f) :=
  g.carries_invalidate.trans (.of_cells rfl (fun _ => rfl) rfl rfl rfl fun _ h => h)

/-! ### Writing -/

/-- The row at `y` shows something else, of the same width if the stream wrote it. -/
def Redraws (forward : Bool) (y : Nat) (g g' : Grid) : Prop :=
  ∃ line, (forward = true → ∀ row, g.visibleRow? y = some row → line.len = row.len) ∧
    g' = { g with cells := g.cells.modify (g.scrollbackLen + y) ({ · with toLine := line }) }

variable {forward : Bool} {y : Nat}

theorem Redraws.refl (forward : Bool) (y : Nat) (g : Grid) : Redraws forward y g g := by
  cases hrow : g.visibleRow? y with
  | none =>
      refine ⟨{ cells := [] }, fun _ row h => by simp [hrow] at h, ?_⟩
      have hle : g.cells.length ≤ g.scrollbackLen + y := List.getElem?_eq_none_iff.mp hrow
      rw [List.modify_eq_self hle]
  | some row =>
      refine ⟨row.toLine, fun _ row' h => ?_, ?_⟩
      · cases hrow.symm.trans h
        rfl
      · have hcells : g.cells.modify (g.scrollbackLen + y) ({ · with toLine := row.toLine }) =
            g.cells := by
          refine List.ext_getElem? fun i => ?_
          rw [List.getElem?_modify]
          by_cases hi : g.scrollbackLen + y = i
          · subst hi
            rw [show g.cells[g.scrollbackLen + y]? = some row from hrow]
            simp
          · simp [hi]
        rw [hcells]

theorem Redraws.trans (h : Redraws forward y g g') (h' : Redraws forward y g' g'') :
    Redraws forward y g g'' := by
  obtain ⟨line, hlen, rfl⟩ := h
  obtain ⟨line', hlen', rfl⟩ := h'
  refine ⟨line', fun hf row hrow => ?_, ?_⟩
  · rw [← hlen hf row hrow]
    refine hlen' hf { row with toLine := line } ?_
    have hrow : g.cells[g.scrollbackLen + y]? = some row := hrow
    simp [visibleRow?, hrow]
  · rw [List.modify_modify_eq]
    rfl

theorem redraws_modifyRow? {f : Row → Option Row}
    (hf : ∀ row row', f row = some row' → ∃ line, row' = { row with toLine := line } ∧
      (forward = true → line.len = row.len)) :
    Ensures (g.modifyRow? y f) (Redraws forward y g) := by
  refine .bind_some fun row hrow => .bind_some fun row' hrow' => .pure ?_
  obtain ⟨line, rfl, hlen⟩ := hf row row' hrow'
  refine ⟨line, fun hfwd row' hrow'' => ?_, ?_⟩
  · cases hrow.symm.trans hrow''
    exact hlen hfwd
  · have hrow : g.cells[g.scrollbackLen + y]? = some row := hrow
    congr 1
    refine List.ext_getElem? fun i => ?_
    rw [List.getElem?_modify, List.getElem?_set]
    by_cases hi : g.scrollbackLen + y = i
    · subst hi
      obtain ⟨hlt, hget⟩ := List.getElem?_eq_some_iff.mp hrow
      simp [hlt, hget]
    · simp [hi]

theorem redraws_withLine {f : Line → Line} (hf : ∀ line, (f line).len = line.len) :
    Ensures (g.modifyRow? y fun row => some (row.withLine f)) (Redraws forward y g) :=
  redraws_modifyRow? fun row _ h => ⟨f row.toLine, (Option.some.inj h).symm, fun _ => hf _⟩

theorem redraws_setAt? (forward : Bool) (g : Grid) (x y : Nat) (cell : Cell) :
    Ensures (g.setAt? x y cell) (Redraws forward y g) := by
  refine redraws_modifyRow? fun row row' h => ?_
  unfold Row.set? at h
  split at h
  · cases h
    exact ⟨row.toLine.set x cell, rfl, fun _ => Line.len_set ..⟩
  · cases h

theorem redraws_setTwo? (forward : Bool) (g : Grid) (x x' y : Nat) (cell cell' : Cell) :
    Ensures (do
      let g ← g.setAt? x y cell
      g.setAt? x' y cell') (Redraws forward y g) :=
  .bind (redraws_setAt? forward g x y cell) fun g' h =>
    (redraws_setAt? forward g' x' y cell').mono fun _ h' => h.trans h'

theorem redraws_fixupWideCharAt? (forward : Bool) (g : Grid) (x y : Nat) :
    Ensures (g.fixupWideCharAt? x y) (Redraws forward y g) := by
  unfold fixupWideCharAt?
  split
  · exact .pure (.refl ..)
  · refine .bind_some fun row _ => .bind_some fun cell _ => ?_
    split
    · split
      · exact redraws_setTwo? forward g (x + 1) x y _ _
      · exact redraws_setAt? forward g x y _
    · split
      · exact redraws_setTwo? forward g (x - 1) x y _ _
      · exact .pure (.refl ..)

theorem redraws_clearCombining? (forward : Bool) (g : Grid) (x y : Nat) :
    Ensures (g.clearCombining? x y) (Redraws forward y g) :=
  redraws_withLine fun _ => rfl

theorem redraws_setCellRaw? (forward : Bool) (g : Grid) (x y : Nat) (cell : Cell) :
    Ensures (g.setCellRaw? x y cell) (Redraws forward y g) := by
  -- a cell is put, and the marks of its column go
  have hput : ∀ (g : Grid) (x : Nat) (cell : Cell), Ensures (do
      let g ← g.fixupWideCharAt? x y
      let g ← g.setAt? x y cell
      g.clearCombining? x y) (Redraws forward y g) := by
    intro g x cell
    refine .bind (redraws_fixupWideCharAt? forward g x y) fun g₁ h₁ => ?_
    refine .bind (redraws_setAt? forward g₁ x y cell) fun g₂ h₂ => ?_
    exact (redraws_clearCombining? forward g₂ x y).mono fun _ h₃ => (h₁.trans h₂).trans h₃
  unfold setCellRaw?
  refine .bind (redraws_fixupWideCharAt? forward g x y) fun g₁ h₁ => ?_
  refine .bind (redraws_setAt? forward g₁ x y cell) fun g₂ h₂ => ?_
  refine .bind (redraws_clearCombining? forward g₂ x y) fun g₃ h₃ => ?_
  have h := (h₁.trans h₂).trans h₃
  split
  · exact (hput g₃ (x + 1) _).mono fun _ h' => h.trans h'
  · exact .pure h

/-- The edge into a row is cut, or there is none, or the stream goes on along it. -/
theorem cutIncoming_eq (g : Grid) (index : Nat) (targetId : Option Nat) (forwardStream : Bool) :
    ∃ cut : Bool, g.cutIncoming index targetId forwardStream =
        (if cut then g.setOutgoing (index - 1) none else g) ∧
      (cut = true → 0 < index) ∧
      ∀ i previous edge, i + 1 = index → g.cells[i]? = some previous → cut = false →
        previous.outgoing = some edge → targetId = some edge.target →
        forwardStream = true ∧ ∃ seq ∈ g.sequentialEdge, previous.rowId = some seq.source ∧
          targetId = some seq.target := by
  unfold cutIncoming
  rcases Nat.eq_zero_or_pos index with rfl | hpos
  · exact ⟨false, by simp, by simp, by simp⟩
  · rw [if_pos hpos]
    cases hprev : g.cells[index - 1]? with
    | none =>
        refine ⟨false, by simp, by simp, fun i previous _ hi h => ?_⟩
        rw [show index - 1 = i by omega, h] at hprev
        cases hprev
    | some previous =>
        dsimp only
        split
        next => exact ⟨true, by simp, fun _ => hpos, by simp⟩
        next hcut =>
          refine ⟨false, by simp, by simp, fun i previous' edge hi h _ hedge htarget => ?_⟩
          rw [show index - 1 = i by omega, h] at hprev
          cases hprev
          simp only [hedge, htarget, Option.any_some, beq_self_eq_true, Bool.true_and,
            Bool.not_eq_true, Bool.not_eq_false', Bool.and_eq_true, Option.any_eq_true_iff_get] at hcut
          obtain ⟨hforward, hsome, hseq⟩ := hcut
          simp only [beq_iff_eq] at hseq
          exact ⟨hforward, _, Option.get_mem hsome, hseq.1.1, htarget ▸ hseq.1.2⟩

/-- The rows after a write at `index`, which may cut the edge of the row before. -/
def writtenRow (index : Nat) (cut : Bool) (i : Nat) (row : Row) : Row :=
  if i = index then row.cut.advanceRevision
  else if cut = true ∧ i + 1 = index then row.cut
  else row

def redrawnRow (index : Nat) (cut : Bool) (line : Line) (i : Nat) (row : Row) : Row :=
  if index = i then { writtenRow index cut i row with toLine := line }
  else writtenRow index cut i row

@[simp] theorem rowId_redrawnRow (index : Nat) (cut : Bool) (line : Line) (i : Nat) (row : Row) :
    (redrawnRow index cut line i row).rowId = row.rowId := by
  unfold redrawnRow writtenRow
  split_ifs <;> rfl

@[simp] theorem redrawnRow_self (index : Nat) (cut : Bool) (line : Line) (row : Row) :
    redrawnRow index cut line index row = { row.cut.advanceRevision with toLine := line } := by
  simp [redrawnRow, writtenRow]

/-- Elsewhere a row changes in its edge at most. -/
theorem same_redrawnRow {index i : Nat} (h : index ≠ i) (cut : Bool) (line : Line) (row : Row) :
    row.Same (redrawnRow index cut line i row) := by
  unfold redrawnRow writtenRow
  rw [if_neg h, if_neg h.symm]
  split_ifs <;> rfl

/-- A row that still has its edge. -/
theorem redrawnRow_outgoing {index i : Nat} {cut : Bool} {line : Line} {row : Row} {edge : WrapEdge}
    (h : (redrawnRow index cut line i row).outgoing = some edge) :
    index ≠ i ∧ redrawnRow index cut line i row = row ∧ (i + 1 = index → cut = false) := by
  rcases eq_or_ne index i with rfl | hne
  · rw [redrawnRow_self] at h
    cases h
  · refine ⟨hne, ?_⟩
    simp only [redrawnRow, writtenRow, if_neg hne, if_neg hne.symm] at h ⊢
    split_ifs at h ⊢ with hcut
    · cases h
    · exact ⟨rfl, fun hi => by simpa [hi] using hcut⟩

theorem mapIdx_writtenRow (rows : List Row) {index : Nat} {cut : Bool}
    (hcut : cut = true → 0 < index) :
    ((if cut then (rows.modify index Row.cut).modify (index - 1) Row.cut
      else rows.modify index Row.cut).modify index Row.advanceRevision) =
        rows.mapIdx (writtenRow index cut) := by
  refine List.ext_getElem? fun i => ?_
  rw [List.getElem?_mapIdx, List.getElem?_modify]
  cases cut with
  | false =>
      rw [if_neg Bool.false_ne_true, List.getElem?_modify]
      cases rows[i]? with
      | none => rfl
      | some row =>
          rcases eq_or_ne index i with rfl | hne
          · simp [writtenRow]
          · simp [writtenRow, hne, hne.symm]
  | true =>
      have hpos := hcut rfl
      rw [if_pos rfl, List.getElem?_modify, List.getElem?_modify]
      cases rows[i]? with
      | none => rfl
      | some row =>
          rcases eq_or_ne index i with rfl | hne
          · simp [writtenRow, show index - 1 ≠ index by omega]
          · by_cases hi : index - 1 = i
            · simp [writtenRow, hne, hne.symm, hi, show i + 1 = index by omega]
            · simp [writtenRow, hne, hne.symm, hi, show i + 1 ≠ index by omega]

/-- What a write does to the provenance before the row itself changes. -/
theorem beforeContentWrite?_eq {refreshPending : Bool} {g₁ : Grid} (hy : y < g.rows)
    (h : g.beforeContentWrite? y forward refreshPending = some g₁) :
    ∃ row cut pendingWrap sequentialEdge, g.visibleRow? y = some row ∧
      (∀ seq ∈ sequentialEdge, g.sequentialEdge = some seq) ∧
      (∀ i previous edge, i + 1 = g.scrollbackLen + y → g.cells[i]? = some previous →
        cut = false → previous.outgoing = some edge → row.rowId = some edge.target →
        forward = true ∧ ∃ seq ∈ g.sequentialEdge, previous.rowId = some seq.source ∧
          row.rowId = some seq.target) ∧
      g₁ = { g with
        cells := g.cells.mapIdx (writtenRow (g.scrollbackLen + y) cut)
        pendingWrap
        sequentialEdge } := by
  unfold beforeContentWrite? at h
  rw [if_neg (Nat.not_le.mpr hy)] at h
  obtain ⟨row, hrow, h⟩ := Option.bind_eq_some_iff.mp h
  obtain ⟨cut, hcut, hpos, hstream⟩ :=
    (g.setOutgoing (g.scrollbackLen + y) none).cutIncoming_eq (g.scrollbackLen + y) row.rowId forward
  rw [hcut] at h
  have hprevious : ∀ i previous, i + 1 = g.scrollbackLen + y → g.cells[i]? = some previous →
      (g.setOutgoing (g.scrollbackLen + y) none).cells[i]? = some previous := by
    intro i previous hi hget
    rw [setOutgoing, List.getElem?_modify, hget]
    simp [show g.scrollbackLen + y ≠ i by omega]
  have hcells := mapIdx_writtenRow g.cells hpos
  have hstream : ∀ i previous edge, i + 1 = g.scrollbackLen + y → g.cells[i]? = some previous →
      cut = false → previous.outgoing = some edge → row.rowId = some edge.target →
      forward = true ∧ ∃ seq ∈ g.sequentialEdge, previous.rowId = some seq.source ∧
        row.rowId = some seq.target :=
    fun i previous edge hi hget => hstream i previous edge hi (hprevious i previous hi hget)
  cases h
  by_cases hexhausted : (nextU64 row.contentRevision).isNone = true
  · refine ⟨row, cut, none, none, hrow, by simp, hstream, ?_⟩
    rw [if_pos hexhausted, ← hcells]
    cases cut <;> rfl
  · refine ⟨row, cut, g.refreshedPending row refreshPending, g.sequentialEdge, hrow, fun _ h => h,
      hstream, ?_⟩
    rw [if_neg hexhausted, ← hcells]
    cases cut <;> rfl

/-- A write to a row carries the provenance, if what it puts in the place of the row has
its width wherever the stream goes on. -/
theorem carries_write {refreshPending : Bool} (hy : y < g.rows) :
    Ensures (g.beforeContentWrite? y forward refreshPending) fun g₁ => ∀ g', Redraws forward y g₁ g' →
      Carries alt (if forward then g.sequentialEdge else none) g g' := by
  intro g₁ h
  obtain ⟨row, cut, pendingWrap, sequentialEdge, hrow, hseq, hstream, rfl⟩ := beforeContentWrite?_eq hy h
  have hrow : g.cells[g.scrollbackLen + y]? = some row := hrow
  rintro g' ⟨line, hlen, rfl⟩
  have hlen : forward = true → line.len = row.len := by
    intro hforward
    refine hlen hforward row.cut.advanceRevision ?_
    simp [visibleRow?, List.getElem?_mapIdx, hrow, writtenRow]
  have hcells : ∀ i, ((g.cells.mapIdx (writtenRow (g.scrollbackLen + y) cut)).modify
      (g.scrollbackLen + y) ({ · with toLine := line }))[i]? =
        g.cells[i]?.map (redrawnRow (g.scrollbackLen + y) cut line i) := by
    intro i
    rw [List.getElem?_modify, List.getElem?_mapIdx]
    cases g.cells[i]? <;> rfl
  refine .of_map _ hcells (by simp) (fun head => .of_map _ hcells fun i s e hs he => ?_)
    (fun _ => rfl) rfl rfl rfl hseq
  obtain ⟨hne, hsame, hcut⟩ := redrawnRow_outgoing he
  rw [hsame]
  refine ⟨hsame ▸ he, rfl, fun _ u hu hnames => ?_⟩
  rcases eq_or_ne (g.scrollbackLen + y) (i + 1) with hindex | hindex
  · -- the edge into the row that is written: the stream goes on along it
    rw [hindex] at hrow
    cases hrow.symm.trans hu
    obtain ⟨hforward, seq, hseq, hsource, htarget⟩ :=
      hstream i s e hindex.symm hs (hcut hindex.symm) (hsame ▸ he) hnames.target_id
    refine ⟨by simp, ?_, .inr ⟨seq, ?_, hsource, htarget⟩⟩
    · rw [hindex, redrawnRow_self]
      exact hlen hforward
    · rw [if_pos hforward]
      exact hseq
  · exact (edges _).kept_of_same (same_redrawnRow hindex cut line u)

/-- A write followed by what it does to the row. -/
theorem carries_writeThen {refreshPending : Bool} {f : Grid → Option Grid} (hy : y < g.rows)
    (hf : ∀ g₁, Ensures (f g₁) (Redraws forward y g₁)) :
    Ensures (g.beforeContentWrite? y forward refreshPending >>= f)
      (Carries alt (if forward then g.sequentialEdge else none) g) :=
  .bind (carries_write hy) fun g₁ h => (hf g₁).mono h

theorem carries_setCell? (g : Grid) (forward : Bool) (x y : Nat) (cell : Cell) :
    Ensures (g.setCell? forward x y cell)
      (Carries alt (if forward then g.sequentialEdge else none) g) := by
  unfold setCell?
  split
  next => exact .pure (.refl ..)
  next h =>
    rw [not_or] at h
    exact carries_writeThen (by omega) fun g₁ => redraws_setCellRaw? forward g₁ x y cell

theorem carries_setWideEarlyPadding? (g : Grid) (x y : Nat) (cell : Cell) :
    Ensures (g.setWideEarlyPadding? x y cell) (Carries alt g.sequentialEdge g) := by
  unfold setWideEarlyPadding?
  split
  next => exact .pure (.refl ..)
  next h =>
    rw [not_or] at h
    exact carries_writeThen (by omega) fun g₁ => redraws_setAt? true g₁ x y cell

theorem carries_pushPrintCombining? (hy : y < g.rows) (x : Nat) (mark : Char) :
    Ensures (g.pushPrintCombining? y x mark) (Carries alt g.sequentialEdge g) :=
  carries_writeThen hy fun _ => redraws_withLine fun line => line.len_pushCombining x mark

theorem carries_eraseCells? (g : Grid) (y start stop : Nat) (blank : Cell) :
    Ensures (g.eraseCells? y start stop blank) (Carries alt none g) := by
  unfold eraseCells?
  split
  next => exact .pure (.refl ..)
  next hy =>
    dsimp only
    split
    · exact .pure (.refl ..)
    · refine carries_writeThen (by omega) fun g₁ => ?_
      refine .bind (redraws_fixupWideCharAt? false g₁ _ y) fun g₂ h₂ => ?_
      -- the rest goes on from there, whether or not the far end had to be mended
      have hrest : ∀ (g₃ : Grid) (columns : List Nat) (start stop : Nat), Ensures (do
          let g ← columns.foldlM (fun g i => g.setAt? i y blank) g₃
          g.modifyRow? y fun row => some (row.withLine (·.clearCombiningRange start stop)))
          (Redraws false y g₃) := by
        intro g₃ columns start stop
        refine .bind (Q := Redraws false y g₃) (.foldlM (.refl ..) fun g' i _ h => ?_) fun g' h => ?_
        · exact (redraws_setAt? false g' i y blank).mono fun _ h' => h.trans h'
        · exact (redraws_withLine fun line => line.len_clearCombiningRange start stop).mono
            fun _ h' => h.trans h'
      split
      · refine .bind (redraws_fixupWideCharAt? false g₂ _ y) fun g₃ h₃ => ?_
        exact (hrest g₃ _ _ _).mono fun _ h₄ => (h₂.trans h₃).trans h₄
      · exact (hrest g₂ _ _ _).mono fun _ h₃ => h₂.trans h₃

theorem carries_eraseRows? (g : Grid) (startY stopY : Nat) (blank : Cell) :
    Ensures (g.eraseRows? startY stopY blank) (Carries alt none g) := by
  -- the number of rows stays, so that each turn does write
  have hloop : Ensures (g.eraseRows? startY stopY blank) fun g' =>
      Carries alt none g g' ∧ g'.toFrame = g.toFrame := by
    refine .foldlM ⟨.refl .., rfl⟩ fun g' y hy h => ?_
    have hy : y < g'.rows := by
      have hrows : g'.rows = g.rows := congrArg Frame.rows h.2
      rw [List.mem_range'_1] at hy
      omega
    refine .bind_some fun g₁ hg₁ => ?_
    have hredraw : Ensures (g₁.modifyRow? y fun row => some (row.withLine (·.eraseAll blank)))
        (Redraws false y g₁) := redraws_withLine fun line => line.len_eraseAll blank
    refine hredraw.mono fun g'' hg'' => ⟨h.1.trans (carries_write hy g₁ hg₁ g'' hg''), ?_⟩
    obtain ⟨_, _, _, _, -, -, -, rfl⟩ := beforeContentWrite?_eq hy hg₁
    obtain ⟨_, -, rfl⟩ := hg''
    exact h.2
  exact hloop.mono fun _ h => h.1

/-! ### Rows that come and go -/

theorem carries_detachRow (g : Grid) (index doomed : Nat) :
    Carries alt stream g (g.detachRow index doomed) := by
  have hseq : ∀ (g₁ : Grid), Carries alt stream g g₁ → Carries alt stream g
      { g₁ with
        pendingWrap := g₁.pendingWrap.filter fun pending => pending.source != doomed
        sequentialEdge := g₁.sequentialEdge.filter fun seq =>
          !(seq.source == doomed || seq.target == doomed) } :=
    fun g₁ h => h.trans (.of_cells rfl (fun _ => rfl) rfl rfl rfl fun seq hseq =>
      (Option.filter_eq_some_iff.mp hseq).1)
  refine hseq _ ?_
  split_ifs
  · exact g.carries_cutAt (index - 1)
  · exact .refl ..

/-- No edge names a row that is detached. -/
theorem detachRow_outgoing {index doomed i : Nat} {row : Row} {edge : WrapEdge} (hi : i + 1 = index)
    (hrow : (g.detachRow index doomed).cells[i]? = some row) (hedge : row.outgoing = some edge) :
    edge.target ≠ doomed := by
  rintro rfl
  unfold detachRow at hrow
  dsimp only at hrow
  split_ifs at hrow with hinto
  · rw [setOutgoing, List.getElem?_modify, show index - 1 = i by omega] at hrow
    obtain ⟨row', -, rfl⟩ := Option.map_eq_some_iff.mp hrow
    simp at hedge
  · have hpos : 0 < index := by omega
    simp [edgeInto, hpos, show index - 1 = i by omega, hrow, hedge] at hinto

theorem map_rowId_detachRow (g : Grid) (index doomed i : Nat) :
    (g.detachRow index doomed).cells[i]?.map Row.rowId = g.cells[i]?.map Row.rowId := by
  unfold detachRow
  dsimp only
  split_ifs
  · rw [setOutgoing, List.getElem?_modify]
    cases g.cells[i]? with
    | none => rfl
    | some row => by_cases hi : index - 1 = i <;> simp [hi]
  · rfl

@[simp] theorem scrollbackLen_detachRow (g : Grid) (index doomed : Nat) :
    (g.detachRow index doomed).scrollbackLen = g.scrollbackLen := by
  unfold detachRow
  dsimp only
  split_ifs <;> rfl

/-- The rule for a row that is taken out when no edge names it. -/
theorem Carries.of_eraseIdx {k : Nat} (hcells : g'.cells = g.cells.eraseIdx k)
    (hk : alt = true → g.scrollbackLen ≤ k)
    (hnone : ∀ i s e u, i + 1 = k → g.cells[i]? = some s → s.outgoing = some e →
      g.cells[k]? = some u → u.rowId ≠ some e.target)
    (hboundary : alt = true → g'.scrollbackLen = g.scrollbackLen)
    (hrow : g'.nextRowId = g.nextRowId) (hedge : g'.nextEdgeId = g.nextEdgeId)
    (hdomain : g'.inAltDomain = g.inAltDomain)
    (hseq : ∀ seq ∈ g'.sequentialEdge, g.sequentialEdge = some seq) :
    Carries alt stream g g' where
  links head := by
    rw [seam_congr hboundary, hcells]
    refine .eraseIdx (fun b hb => ?_) fun i s e u hi hs he hu hnames => ?_
    · obtain ⟨halt, rfl⟩ := eq_of_mem_seam hb
      exact hk halt
    · exact hnone i s e u hi hs he hu hnames.target_id
  ids saved h := by
    refine h.of_sublist hrow ?_
    rw [hcells]
    exact (List.eraseIdx_sublist g.cells k).filterMap _
  edgeId := hedge
  sequential := hseq
  domain := hdomain
  boundary halt := (hboundary halt).le
  history halt i hi := by
    have := hk halt
    have := hboundary halt
    rw [hcells, List.getElem?_eraseIdx, if_pos (by omega)]

theorem carries_removeRowAt (g : Grid) {index : Nat} (hindex : alt = true → g.scrollbackLen ≤ index) :
    Carries alt stream g (g.removeRowAt index) := by
  unfold removeRowAt
  split
  next => exact .refl ..
  next row hrow =>
    cases hid : row.rowId with
    | none =>
        refine .of_eraseIdx rfl hindex (fun i s e u _ _ _ hu => ?_) (fun _ => rfl) rfl rfl rfl
          fun _ h => h
        cases hrow.symm.trans hu
        simp [hid]
    | some doomed =>
        refine (g.carries_detachRow index doomed).trans (.of_eraseIdx rfl (by simpa using hindex)
          (fun i s e u hi hs he hu => ?_) (fun _ => rfl) rfl rfl rfl fun _ h => h)
        have hne := detachRow_outgoing hi hs he
        have hids := g.map_rowId_detachRow index doomed index
        rw [hrow, hu, Option.map_some, Option.map_some, hid, Option.some.injEq] at hids
        rw [hids]
        exact fun h => hne (Option.some.inj h).symm

/-- What stands across the seam of an insertion is not linked. -/
theorem carries_separateRows (g : Grid) (index : Nat) : Carries alt stream g (g.separateRows index) := by
  unfold separateRows
  split
  · split_ifs
    · exact (g.carries_cutAt (index - 1)).trans (.of_cells rfl (fun _ => rfl) rfl rfl rfl
        fun seq hseq => (Option.filter_eq_some_iff.mp hseq).1)
    · exact .refl ..
  · exact .refl ..

theorem separateRows_outgoing {index i : Nat} {row next : Row} {edge : WrapEdge}
    (hi : i + 1 = index) (hrow : (g.separateRows index).cells[i]? = some row)
    (hedge : row.outgoing = some edge) (hnext : (g.separateRows index).cells[index]? = some next) :
    next.rowId ≠ some edge.target := by
  intro htarget
  unfold separateRows at hrow hnext
  rw [if_pos (show 0 < index by omega), show index - 1 = i by omega] at hrow hnext
  cases hprev : g.cells[i]? with
  | none => simp [hprev] at hrow
  | some previous =>
      cases hnext' : g.cells[index]? with
      | none => simp [hprev, hnext'] at hnext
      | some next' =>
          simp only [hprev, hnext'] at hrow hnext
          split_ifs at hrow hnext with hacross
          · -- the edge across was cut
            rw [setOutgoing, List.getElem?_modify, hprev] at hrow
            simp only [Option.map_eq_map, Option.map_some, if_pos, Option.some.injEq] at hrow
            rw [← hrow] at hedge
            cases hedge
          · cases hprev.symm.trans hrow
            cases hnext'.symm.trans hnext
            simp [hedge, htarget] at hacross

/-- The rule for a new row, with the next id and no edge. -/
theorem Carries.of_insertIdx {k : Nat} {row : Row} (hcells : g'.cells = g.cells.insertIdx k row)
    (hk : k ≤ g.cells.length) (hseam : alt = true → g.scrollbackLen ≤ k)
    (hid : row.rowId = g.nextRowId) (hout : row.outgoing = none)
    (hnone : ∀ i s e u, i + 1 = k → g.cells[i]? = some s → s.outgoing = some e →
      g.cells[k]? = some u → u.rowId ≠ some e.target)
    (hboundary : alt = true → g'.scrollbackLen = g.scrollbackLen)
    (hrow : g'.nextRowId = nextU64 g.nextRowId) (hedge : g'.nextEdgeId = g.nextEdgeId)
    (hdomain : g'.inAltDomain = g.inAltDomain)
    (hseq : ∀ seq ∈ g'.sequentialEdge, g.sequentialEdge = some seq) :
    Carries alt stream g g' where
  links head := by
    rw [seam_congr hboundary, hcells]
    refine .insertIdx hk (fun b hb => ?_) hout fun i s e u hi hs he hu hnames => ?_
    · obtain ⟨halt, rfl⟩ := eq_of_mem_seam hb
      exact hseam halt
    · exact hnone i s e u hi hs he hu hnames.target_id
  ids saved h := h.insert hk hid hcells hrow
  edgeId := hedge
  sequential := hseq
  domain := hdomain
  boundary halt := (hboundary halt).le
  history halt i hi := by
    have := hseam halt
    have := hboundary halt
    rw [hcells, List.getElem?_insertIdx, if_pos (by omega)]

theorem separateRows_fresh (g : Grid) (index : Nat) :
    { g with nextRowId := nextU64 g.nextRowId }.separateRows index =
      { g.separateRows index with nextRowId := nextU64 g.nextRowId } := by
  unfold separateRows
  dsimp only
  split
  · split_ifs <;> rfl
  · rfl

@[simp] theorem separateRows_ledger (g : Grid) (index : Nat) :
    (g.separateRows index).scrollbackLen = g.scrollbackLen ∧
      (g.separateRows index).nextRowId = g.nextRowId ∧
      (g.separateRows index).cells.length = g.cells.length := by
  unfold separateRows
  split
  · split_ifs <;> simp [setOutgoing]
  · exact ⟨rfl, rfl, rfl⟩

theorem carries_insertBlank (g : Grid) (y : Nat) (fill : Cell) :
    Ensures ((g.newBlankRow fill).2.insertVisibleRow? y (g.newBlankRow fill).1)
      (Carries alt stream g) := by
  obtain ⟨hboundary, hnext, hlen⟩ := g.separateRows_ledger (g.scrollbackLen + y)
  unfold insertVisibleRow? newBlankRow freshRow
  dsimp only
  rw [separateRows_fresh]
  split
  next hle =>
    refine .pure ((g.carries_separateRows (g.scrollbackLen + y)).trans ?_)
    refine .of_insertIdx rfl (hle.trans hlen.ge) (fun _ => ?_) hnext.symm rfl
      (fun i s e u hi hs he hu => separateRows_outgoing hi hs he hu) (fun _ => rfl) ?_ rfl rfl
      fun _ h => h
    · rw [hboundary]
      exact Nat.le_add_right _ _
    · rw [hnext]
  next => exact fun _ h => by cases h

theorem carries_pushFresh (g : Grid) (cells : List Cell) (hboundary : alt = true → g.scrollbackLen ≤ g.cells.length) :
    Carries alt stream g ((g.freshRow cells).2.pushRow (g.freshRow cells).1) := by
  refine .of_insertIdx (k := g.cells.length) List.insertIdx_length_self.symm le_rfl hboundary rfl
    rfl (fun i s e u _ _ _ hu => ?_) (fun _ => rfl) rfl rfl rfl fun _ h => h
  rw [List.getElem?_eq_none le_rfl] at hu
  cases hu

/-! ### Scrolling -/

/-- Without the alternate screen the boundary has no part in the provenance. -/
theorem carries_boundary (g : Grid) (scrollbackLen pendingStart : Nat) (captured : List Line) :
    Carries false stream g { g with scrollbackLen, pendingStart, captured } :=
  .of_cells rfl (by simp) rfl rfl rfl fun _ h => h

theorem carries_captureTopRow (g : Grid) {evict : Grid → Grid}
    (hevict : ∀ g, Carries false stream g (evict g)) :
    Carries false stream g (g.captureTopRow evict) := by
  unfold captureTopRow
  dsimp only
  split_ifs
  · exact ((carries_boundary ..).trans (hevict _)).trans (carries_boundary ..)
  · exact carries_boundary ..

/-- A row leaves and a blank one comes in. -/
theorem carries_shiftRow (g : Grid) (out into : Nat) (fill : Cell) :
    Ensures (((g.removeVisibleRow out).newBlankRow fill).2.insertVisibleRow? into
      ((g.removeVisibleRow out).newBlankRow fill).1) (Carries alt stream g) :=
  (carries_insertBlank (g.removeVisibleRow out) into fill).mono fun _ h =>
    (g.carries_removeRowAt fun _ => Nat.le_add_right _ _).trans h

theorem carries_scrollUp? (g : Grid) (inAltScreen : Bool) (fill : Cell) :
    Ensures (g.scrollUp? inAltScreen fill) (Carries inAltScreen stream g) := by
  unfold scrollUp?
  refine .bind_some fun visibleLen _ => ?_
  split
  next hcapture =>
    obtain ⟨rfl, -, -⟩ := hcapture
    have hcaptured : Carries false stream g (g.captureTopRow (·.removeRowAt 0)) :=
      g.carries_captureTopRow fun g => g.carries_removeRowAt (by simp)
    refine .bind_some fun _ _ => ?_
    dsimp only
    split
    · exact .pure (hcaptured.trans (carries_pushFresh _ _ (by simp)))
    · exact (carries_insertBlank _ _ fill).mono fun _ h => hcaptured.trans h
  next =>
    split
    · split
      · exact carries_shiftRow g 0 _ fill
      · exact carries_shiftRow g _ _ fill
    · exact .pure (.refl ..)

theorem carries_scrollDown? (g : Grid) (fill : Cell) :
    Ensures (g.scrollDown? fill) (Carries alt stream g) := by
  unfold scrollDown?
  refine .bind_some fun visibleLen _ => ?_
  split
  · exact carries_shiftRow g _ _ fill
  · exact .pure (.refl ..)

theorem carries_clearScrollback? (g : Grid) :
    Ensures g.clearScrollback? (Carries alt stream g) := by
  unfold clearScrollback?
  refine .bind_some fun _ _ => .pure ?_
  refine (g.carries_severIds (g.scrollbackRows.filterMap Row.rowId)).trans ?_
  generalize g.severIds (g.scrollbackRows.filterMap Row.rowId) = g
  have hseam : seam { g with cells := g.cells.drop g.scrollbackLen, scrollbackLen := 0, pendingStart := 0 }
      alt = (g.seam alt).map fun _ => 0 := by
    unfold seam
    split_ifs <;> rfl
  refine ⟨fun head => ?_, fun saved h => ?_, rfl, fun _ h => h, rfl, fun _ => Nat.zero_le _,
    fun _ i hi => absurd hi (Nat.not_lt_zero i)⟩
  · rw [hseam]
    exact .drop fun b hb => (eq_of_mem_seam hb).2.ge
  · exact h.of_sublist rfl ((List.drop_sublist _ _).filterMap _)

/-! ### The bottom rows -/

/-- No edge names a row whose id was severed. -/
theorem severIds_outgoing {doomed : List Nat} {i id : Nat} {row : Row} {edge : WrapEdge}
    (hrow : (g.severIds doomed).cells[i]? = some row) (hedge : row.outgoing = some edge)
    (hid : id ∈ doomed) : edge.target ≠ id := by
  rw [getElem?_severIds] at hrow
  obtain ⟨row', -, rfl⟩ := Option.map_eq_some_iff.mp hrow
  exact fun h => (severedRow_outgoing hedge).2.1 (h ▸ hid)

theorem map_rowId_severIds (g : Grid) (doomed : List Nat) (i : Nat) :
    (g.severIds doomed).cells[i]?.map Row.rowId = g.cells[i]?.map Row.rowId := by
  rw [getElem?_severIds, Option.map_map]
  congr 1
  exact funext fun row => (same_severedRow doomed row).rowId

@[simp] theorem length_severIds (g : Grid) (doomed : List Nat) :
    (g.severIds doomed).cells.length = g.cells.length :=
  List.length_map _

/-- The last row leaves, which is behind the history. -/
theorem carries_popRow (g : Grid) (hlen : alt = true → g.scrollbackLen < g.cells.length) :
    Carries alt stream g g.popRow := by
  have hdrop : ∀ g₁ : Grid, g₁.scrollbackLen = g.scrollbackLen → g₁.cells.length = g.cells.length →
      (∀ i s e u, i + 1 = g₁.cells.length - 1 → g₁.cells[i]? = some s → s.outgoing = some e →
        g₁.cells[g₁.cells.length - 1]? = some u → u.rowId ≠ some e.target) →
      Carries alt stream g₁ { g₁ with cells := g₁.cells.dropLast } := by
    intro g₁ hboundary hlen₁ hnone
    refine .of_eraseIdx (k := g₁.cells.length - 1) List.eraseIdx_length_sub_one.symm (fun halt => ?_)
      hnone (fun _ => rfl) rfl rfl rfl fun _ h => h
    have := hlen halt
    omega
  unfold popRow
  dsimp only
  split
  next id hid =>
    refine (g.carries_severIds [id]).trans (hdrop _ rfl (g.length_severIds [id]) fun i s e u hi hs he hu => ?_)
    have hne := severIds_outgoing hs he (List.mem_singleton_self id)
    rw [List.getLast?_eq_getElem?] at hid
    rw [length_severIds] at hu
    have hids := g.map_rowId_severIds [id] (g.cells.length - 1)
    obtain ⟨last, hlast, hlastId⟩ := Option.bind_eq_some_iff.mp hid
    rw [hu, hlast, Option.map_some, Option.map_some, hlastId, Option.some.injEq] at hids
    rw [hids]
    exact fun h => hne (Option.some.inj h).symm
  next hid =>
    refine hdrop g rfl rfl fun i s e u hi hs he hu => ?_
    rw [List.getLast?_eq_getElem?, hu, Option.bind_some] at hid
    simp [hid]

theorem carries_pushBlank (g : Grid) (hlen : alt = true → g.scrollbackLen ≤ g.cells.length) :
    Carries alt stream g g.pushBlank :=
  carries_pushFresh g _ hlen

@[simp] theorem scrollbackLen_popRow (g : Grid) : g.popRow.scrollbackLen = g.scrollbackLen := by
  unfold popRow
  dsimp only
  split <;> rfl

@[simp] theorem length_popRow (g : Grid) : g.popRow.cells.length = g.cells.length - 1 := by
  unfold popRow
  dsimp only
  split <;> simp

theorem carries_iterate_popRow (g : Grid) {n : Nat}
    (hlen : alt = true → g.scrollbackLen + n ≤ g.cells.length) :
    Carries alt stream g (Nat.iterate popRow n g) := by
  induction n generalizing g with
  | zero => exact .refl ..
  | succ n ih =>
      rw [Function.iterate_succ_apply]
      refine (g.carries_popRow fun halt => ?_).trans (ih g.popRow fun halt => ?_)
      · have := hlen halt
        omega
      · have := hlen halt
        rw [scrollbackLen_popRow, length_popRow]
        omega

theorem carries_iterate_pushBlank (g : Grid) (n : Nat)
    (hlen : alt = true → g.scrollbackLen ≤ g.cells.length) :
    Carries alt stream g (Nat.iterate pushBlank n g) := by
  induction n generalizing g with
  | zero => exact .refl ..
  | succ n ih =>
      rw [Function.iterate_succ_apply]
      refine (g.carries_pushBlank hlen).trans (ih g.pushBlank fun halt => ?_)
      refine (hlen halt).trans ?_
      show g.cells.length ≤ (g.cells ++ _).length
      simp

/-- No more rows are popped than are visible. -/
theorem carries_fitVisible (g : Grid) {visibleLen : Nat}
    (hlen : alt = true → g.scrollbackLen + visibleLen ≤ g.cells.length) :
    Carries alt stream g (g.fitVisible visibleLen) := by
  have hpop : alt = true → g.scrollbackLen + (visibleLen - g.rows) ≤ g.cells.length := by
    intro halt
    have := hlen halt
    omega
  refine (g.carries_iterate_popRow hpop).trans (carries_iterate_pushBlank _ _ fun halt => ?_)
  have hle := hpop halt
  have hiterate : ∀ n (g : Grid), (Nat.iterate popRow n g).scrollbackLen = g.scrollbackLen ∧
      (Nat.iterate popRow n g).cells.length = g.cells.length - n := by
    intro n
    induction n with
    | zero => exact fun g => ⟨rfl, rfl⟩
    | succ n ih =>
        intro g
        rw [Function.iterate_succ_apply, (ih _).1, (ih _).2, scrollbackLen_popRow, length_popRow]
        exact ⟨rfl, by omega⟩
  rw [(hiterate _ g).1, (hiterate _ g).2]
  omega

theorem carries_adjustVisibleToFit (g : Grid) (hlen : alt = true → g.scrollbackLen ≤ g.cells.length) :
    Carries alt stream g g.adjustVisibleToFit := by
  refine (g.carries_fitVisible fun halt => ?_).trans (carries_validateAllEdges _)
  have := hlen halt
  unfold visibleRowCount
  omega

theorem carries_dropFront (g : Grid) : Carries false stream g g.dropFront := by
  have hdrop : ∀ g₁ : Grid, Carries false stream g₁ { g₁ with cells := g₁.cells.tail } := by
    intro g₁
    refine .of_eraseIdx (k := 0) List.eraseIdx_zero.symm (by simp) (fun i s e u hi => ?_) (by simp)
      rfl rfl rfl fun _ h => h
    omega
  unfold dropFront
  dsimp only
  split
  · exact (g.carries_severIds _).trans (hdrop _)
  · exact hdrop g

theorem carries_pushTopRow? (g : Grid) : Ensures g.pushTopRow? (Carries false stream g) := by
  unfold pushTopRow?
  refine .bind_some fun visibleLen _ => ?_
  split
  · exact .pure (.refl ..)
  · exact .pure (g.carries_captureTopRow carries_dropFront)

theorem chopOne?_eq (h : g.chopOne? = some (some g')) : g' = g.popRow := by
  unfold chopOne? at h
  obtain ⟨visibleLen, -, h⟩ := Option.bind_eq_some_iff.mp h
  split at h
  · cases h
  · obtain ⟨last, -, h⟩ := Option.bind_eq_some_iff.mp h
    split at h
    · cases h
      rfl
    · cases h

theorem carries_chopBlankBottomRows? (g : Grid) (max : Nat) :
    Ensures (g.chopBlankBottomRows? max) fun r => Carries false stream g r.2 := by
  induction max generalizing g with
  | zero => exact .pure (.refl ..)
  | succ max ih =>
      unfold chopBlankBottomRows?
      refine .bind_some fun chopped hchopped => ?_
      cases chopped with
      | none => exact .pure (.refl ..)
      | some g₁ =>
          have hpop : Carries false stream g g₁ := chopOne?_eq hchopped ▸ g.carries_popRow (by simp)
          exact .bind (ih g₁) fun r hr => .pure (hpop.trans hr)

/-! ### Resizing -/

theorem resizeRow_self {cols : Nat} {row : Row} (h : row.len = cols) : resizeRow cols row = row := by
  unfold resizeRow
  dsimp only
  rw [if_neg (not_not_intro h)]
  exact congrArg (fun line => { row with toLine := line }) (Line.resize_own_width h {})

/-- A row that changes its width loses its edge. -/
theorem resizeRow_outgoing {cols : Nat} {row : Row} {edge : WrapEdge}
    (h : (resizeRow cols row).outgoing = some edge) : row.len = cols := by
  by_contra hne
  unfold resizeRow at h
  dsimp only at h
  rw [if_pos hne] at h
  cases h

theorem len_resizeRow (cols : Nat) (row : Row) : (resizeRow cols row).len = cols :=
  Line.len_resize ..

def resizedRow (g : Grid) (i : Nat) (row : Row) : Row :=
  if i < g.scrollbackLen then row else resizeRow g.cols row

theorem rowId_resizedRow (g : Grid) (i : Nat) (row : Row) :
    (g.resizedRow i row).rowId = row.rowId := by
  unfold resizedRow resizeRow
  dsimp only
  split_ifs <;> rfl

theorem resizedRow_outgoing {i : Nat} {row : Row} {edge : WrapEdge}
    (h : (g.resizedRow i row).outgoing = some edge) : g.resizedRow i row = row := by
  unfold resizedRow at h ⊢
  split_ifs at h ⊢
  · rfl
  · exact resizeRow_self (resizeRow_outgoing h)

/-- A row that has the same width afterwards did not change. -/
theorem resizedRow_of_len {i : Nat} {row : Row} (h : (g.resizedRow i row).len = row.len) :
    g.resizedRow i row = row := by
  unfold resizedRow at h ⊢
  split_ifs at h ⊢
  · rfl
  · exact resizeRow_self (h ▸ len_resizeRow g.cols row)

theorem getElem?_resizedRows (g : Grid) (i : Nat) :
    (g.cells.take g.scrollbackLen ++ (g.cells.drop g.scrollbackLen).map (resizeRow g.cols))[i]? =
      g.cells[i]?.map (g.resizedRow i) := by
  unfold resizedRow
  rcases lt_or_ge i g.cells.length with hlt | hge
  · split_ifs with hi
    · rw [List.getElem?_append_left (by rw [List.length_take]; omega), List.getElem?_take_of_lt hi,
        Option.map_id']
    · rw [List.getElem?_append_right (by rw [List.length_take]; omega), List.getElem?_map,
        List.getElem?_drop, List.length_take,
        show g.scrollbackLen + (i - min g.scrollbackLen g.cells.length) = i by omega]
  · rw [List.getElem?_eq_none hge, Option.map_none, List.getElem?_eq_none]
    rw [List.length_append, List.length_map, List.length_take, List.length_drop]
    omega

/-- The grid with its visible rows at a new width, before the edges are validated. -/
def resizedRows (g : Grid) : Grid := { g with
  cells := g.cells.take g.scrollbackLen ++ (g.cells.drop g.scrollbackLen).map (resizeRow g.cols) }

/-- An edge that is valid behind the history names a row as wide as it says. -/
theorem edgeValid_next {i : Nat} {row : Row} {edge : WrapEdge} (h : g.edgeValid i row edge = true)
    (hseam : g.inAltDomain = true → i + 1 ≠ g.scrollbackLen) :
    ∃ target, g.cells[i + 1]? = some target ∧ target.len = edge.validWidth := by
  have hsuspended : g.suspendedBoundary i row edge = false := by
    unfold suspendedBoundary
    cases hdomain : g.inAltDomain with
    | false => simp
    | true => simp [hseam hdomain]
  rw [edgeValid, hsuspended, if_neg Bool.false_ne_true, Bool.and_eq_true, Option.any_eq_true] at h
  obtain ⟨-, target, htarget, hshape⟩ := h
  simp only [edgeShapeValid, Bool.and_eq_true, beq_iff_eq] at hshape
  exact ⟨target, htarget, hshape.2.1.2⟩

/-- Where an edge stays after the widths were validated, neither row has changed its own. -/
theorem carries_resizedRows (g : Grid) (hdomain : g.inAltDomain = alt) :
    Carries alt stream g g.resizedRows.validateAllEdges := by
  have hcells : ∀ i, g.resizedRows.validateAllEdges.cells[i]? =
      g.cells[i]?.map fun row => g.resizedRows.validRow i (g.resizedRow i row) := by
    intro i
    rw [getElem?_validateAllEdges, show g.resizedRows.cells[i]? = _ from g.getElem?_resizedRows i,
      Option.map_map]
    rfl
  refine .of_map _ hcells (fun i row => ?_) (fun head => .of_map _ hcells fun i s e hs he => ?_)
    (fun _ => rfl) rfl rfl rfl fun seq hseq => (Option.filter_eq_some_iff.mp hseq).1
  · rw [(same_validRow ..).rowId, rowId_resizedRow]
  · obtain ⟨hrow, hvalid⟩ := validRow_outgoing he
    have hself := resizedRow_outgoing (hrow ▸ he)
    refine ⟨?_, ?_, fun hseam u hu hnames => ?_⟩
    · rw [← hself, ← hrow]
      exact he
    · rw [hrow, hself]
      exact (edges stream).same_refl s
    · -- the row behind still has the width of the edge, which is its own
      have hne : g.resizedRows.inAltDomain = true → i + 1 ≠ g.resizedRows.scrollbackLen := by
        intro h hi
        exact hseam (by rw [seam, if_pos (hdomain ▸ h), hi]; rfl)
      obtain ⟨target, htarget, hlen⟩ := edgeValid_next hvalid hne
      rw [show g.resizedRows.cells[i + 1]? = _ from g.getElem?_resizedRows (i + 1), hu,
        Option.map_some, Option.some.injEq] at htarget
      rw [← htarget, ← hnames.target_len] at hlen
      rw [resizedRow_of_len hlen]
      exact (edges stream).kept_of_same (same_validRow ..)

theorem carries_invalidatePendingForGeometry (g : Grid) (reason : GeometryInvalidationReason) :
    Carries alt stream g (g.invalidatePendingForGeometry reason) := by
  unfold invalidatePendingForGeometry
  dsimp only
  split_ifs
  all_goals first
    | exact .refl ..
    | exact g.carries_invalidate.trans (.of_cells rfl (fun _ => rfl) rfl rfl rfl fun _ h => h)

theorem carries_settleWrap (g : Grid) (oldCols : Nat) : Carries alt stream g (g.settleWrap oldCols) := by
  have hraw : ∀ g : Grid, Carries alt stream g { g with wrapPending := false } :=
    fun g => .of_cells rfl (fun _ => rfl) rfl rfl rfl fun _ h => h
  unfold settleWrap
  refine (g.carries_invalidatePendingForGeometry (.liveResize (oldCols != g.cols))).trans ?_
  dsimp only
  split_ifs
  · exact (carries_invalidate _).trans (hraw _)
  · exact (carries_validateAllEdges _).trans (hraw _)
  · exact carries_validateAllEdges _

theorem carries_resize? (g : Grid) (hdomain : g.inAltDomain = alt) (cols rows : UInt16) :
    Ensures (g.resize? cols rows) (Carries alt stream g) := by
  unfold resize?
  refine .bind_some fun visibleLen hlen => .pure ?_
  have hlen : g.scrollbackLen + visibleLen ≤ g.cells.length := by
    unfold visibleLen? at hlen
    split at hlen
    · cases hlen
      dsimp only at *
      omega
    · cases hlen
  have hsize : Carries alt stream g { g with size := sanitizeDimensions cols rows } :=
    .of_cells rfl (fun _ => rfl) rfl rfl rfl fun _ h => h
  have hfit := hsize.trans (carries_fitVisible _ fun _ => hlen)
  have hrows := hfit.trans (carries_resizedRows _ (hfit.domain.trans hdomain))
  have hclamp := hrows.trans (carries_withFrame _ (·.clampCursor))
  exact (hclamp.trans (carries_settleWrap _ g.cols)).trans
    (carries_withFrame _ fun f => f.resetScrollRegion.resetTabStops)

theorem carries_growRows (g : Grid) (rows : Nat) : Carries false stream g (g.growRows rows) :=
  .of_cells rfl (by simp) rfl rfl rfl fun _ h => h

theorem carries_shrinkRows? (g : Grid) (rows : Nat) :
    Ensures (g.shrinkRows? rows) (Carries false stream g) := by
  unfold shrinkRows?
  refine .bind (Q := fun r => Carries false stream g r.2) (g.carries_chopBlankBottomRows? _) ?_
  rintro ⟨chopped, g₁⟩ hchopped
  refine .bind_some fun _ _ => ?_
  dsimp only
  split
  · refine .bind (Q := Carries false stream g₁) (.times (.refl ..) fun g₂ h => ?_) fun g₂ h => ?_
    · exact g₂.carries_pushTopRow?.mono fun _ h' => h.trans h'
    · refine .bind_some fun _ _ => .pure ?_
      exact (hchopped.trans h).trans (.of_cells rfl (fun _ => rfl) rfl rfl rfl fun _ h => h)
  · exact .pure hchopped

theorem carries_resizeGrid? (g : Grid) {inAltScreen : Bool} (hdomain : g.inAltDomain = inAltScreen)
    (cols rows : UInt16) :
    Ensures (g.resizeGrid? inAltScreen cols rows) (Carries inAltScreen stream g) := by
  have hresize : ∀ {g₁ : Grid}, Carries inAltScreen stream g g₁ →
      Ensures (g₁.resize? cols rows) (Carries inAltScreen stream g) := fun h =>
    (carries_resize? _ (h.domain.trans hdomain) cols rows).mono fun _ h' => h.trans h'
  unfold resizeGrid?
  dsimp only
  cases inAltScreen with
  | true =>
      rw [if_neg (by simp), if_neg (by simp)]
      exact hresize (.refl ..)
  | false =>
      by_cases hgrow : g.rows < rows.toNat
      · have hshrink : ¬ rows.toNat < g.rows := by omega
        simp only [hgrow, hshrink, and_true, and_false, if_true, if_false]
        exact hresize (g.carries_growRows _)
      · simp only [hgrow, and_false, if_false]
        split
        · exact .bind (g.carries_shrinkRows? _) fun g₁ h => hresize h
        · exact hresize (.refl ..)

end Grid

end QuorumDispatch.Screen
