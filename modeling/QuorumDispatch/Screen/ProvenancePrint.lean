import QuorumDispatch.Screen.ProvenanceAlt

/-!
Printing is the only operation that makes an edge, and the only one under which an edge
stays while one of its rows changes: the stream that wrapped goes on in the second row.
-/

namespace QuorumDispatch.Screen

open Lib

set_option linter.dupNamespace false

theorem index_unique {rows : List Row} (h : (rowIds rows).Nodup) {i j id : Nat} {r r' : Row}
    (hr : rows[i]? = some r) (hr' : rows[j]? = some r') (hid : r.rowId = some id)
    (hid' : r'.rowId = some id) : i = j := by
  rw [rowIds, List.nodup_iff_pairwise_ne, List.pairwise_filterMap, List.pairwise_iff_getElem] at h
  obtain ⟨hi, rfl⟩ := List.getElem?_eq_some_iff.mp hr
  obtain ⟨hj, rfl⟩ := List.getElem?_eq_some_iff.mp hr'
  rcases lt_trichotomy i j with hlt | heq | hgt
  · exact absurd rfl (h i j hi hj hlt id hid id hid')
  · exact heq
  · exact absurd rfl (h j i hj hi hgt id hid' id hid)

/-! ### The wrap -/

namespace Grid

variable {g : Grid}

theorem wrapEdge?_eq {pending : PendingWrap} {target source : Nat} {edge : WrapEdge}
    (h : g.wrapEdge? pending target = some (source, edge)) :
    ∃ row next, g.cells[source]? = some row ∧ g.cells[source + 1]? = some next ∧
      row.rowId = some pending.source ∧ row.Continues edge next ∧ edge.target = target ∧
      g.nextEdgeId = some edge.edgeId := by
  unfold wrapEdge? at h
  obtain ⟨-, h⟩ := guard_bind_eq_some.mp h
  obtain ⟨i, hi, h⟩ := Option.bind_eq_some_iff.mp h
  obtain ⟨hnext, h⟩ := guard_bind_eq_some.mp h
  obtain ⟨row, hrow, h⟩ := Option.bind_eq_some_iff.mp h
  obtain ⟨next, hto, h⟩ := Option.bind_eq_some_iff.mp h
  obtain ⟨⟨hlen, hlen'⟩, h⟩ := guard_bind_eq_some.mp h
  obtain ⟨edgeId, hedge, h⟩ := Option.bind_eq_some_iff.mp h
  cases h
  obtain ⟨hlt, hid, -⟩ := List.findIdx?_eq_some_iff_getElem.mp hi
  obtain ⟨hlt', hid', -⟩ := List.findIdx?_eq_some_iff_getElem.mp hnext
  rw [beq_iff_eq, (List.getElem?_eq_some_iff.mp hrow).2] at hid
  rw [beq_iff_eq, (List.getElem?_eq_some_iff.mp hto).2] at hid'
  exact ⟨row, next, hrow, hto, hid, ⟨by simp [hid], hid', hlen, hlen'⟩, rfl, hedge⟩

theorem takeQualifiedWrap?_eq {r : Option PendingWrap × Grid} (h : g.takeQualifiedWrap? = some r) :
    (∃ pendingWrap, r.2 = { g with pendingWrap }) ∧
      ∀ pending ∈ r.1, ∃ row, g.visibleRow? g.cursorY = some row ∧ row.rowId = some pending.source := by
  unfold takeQualifiedWrap? at h
  split at h
  · cases h
    exact ⟨⟨g.pendingWrap, rfl⟩, by simp⟩
  next pending _ =>
    obtain ⟨row, hrow, h⟩ := Option.bind_eq_some_iff.mp h
    cases h
    refine ⟨⟨none, rfl⟩, fun pending' hpending => ⟨row, hrow, ?_⟩⟩
    obtain ⟨hvalid, hpending⟩ := Option.ite_none_right_eq_some.mp hpending
    cases hpending
    simp only [Bool.and_eq_true, beq_iff_eq] at hvalid
    exact hvalid.1.1.1.2

end Grid

namespace Terminal

variable {t t' t'' : Terminal}

def Fresh (t : Terminal) (e : WrapEdge) : Prop :=
  ∃ next, t.grid.nextEdgeId = some next ∧ next ≤ e.edgeId

/-- What printing does to the edges: those that were there stay as the stream of the start
allows, and the stream of the end is along one of them or along a new one. -/
structure Prints (t t' : Terminal) : Prop where
  sound : t'.Sound
  joins : ∀ {s' e u'}, t'.Joins s' e u' → t.Fresh e ∨
    ∃ s u, t.Joins s e u ∧ s.Same s' ∧ s.Kept t.grid.sequentialEdge u u' ∧
      ∀ seq ∈ t'.grid.sequentialEdge, s.rowId = some seq.source → u.rowId = some seq.target →
        t.grid.sequentialEdge = some seq
  fresh : ∀ {e}, t'.Fresh e → t.Fresh e

theorem Carries.prints (h : t.Carries t.grid.sequentialEdge t') (ht : t.Sound) : t.Prints t' where
  sound := h.sound ht
  joins hj := by
    obtain ⟨s, u, hj, hs, hu⟩ := h.joins ht hj
    exact .inr ⟨s, u, hj, hs, hu, fun seq hseq _ _ => h.grid.sequential seq hseq⟩
  fresh := by
    rintro e ⟨next, hnext, hle⟩
    exact ⟨next, h.grid.edgeId ▸ hnext, hle⟩

theorem Prints.refl (ht : t.Sound) : t.Prints t := (Carries.refl _ t).prints ht

theorem Prints.trans (h : t.Prints t') (h' : t'.Prints t'') : t.Prints t'' where
  sound := h'.sound
  joins hj'' := by
    rcases h'.joins hj'' with hfresh | ⟨s', u', hj', hs', hu', hseq'⟩
    · exact .inl (h.fresh hfresh)
    rcases h.joins hj' with hfresh | ⟨s, u, hj, hs, hu, hseq⟩
    · exact .inl hfresh
    refine .inr ⟨s, u, hj, hs.trans hs', ?_, fun seq hmem hsource htarget => ?_⟩
    · -- what was written in the second part was in the stream of the first already
      refine (edges _).kept_trans hs hu ⟨hu'.id, hu'.len, hu'.same.imp_right ?_⟩
      rintro ⟨seq, hmem, hsource, htarget⟩
      exact ⟨seq, hseq seq hmem (hs.rowId ▸ hsource) (hu.id ▸ htarget), hsource, htarget⟩
    · exact hseq seq (hseq' seq hmem (hs.rowId.trans hsource) (hu.id.trans htarget)) hsource htarget
  fresh hfresh := h.fresh (h'.fresh hfresh)

/-- A row that takes a new edge, if it is the one at `source`. -/
def edgedRow (source : Nat) (edge : WrapEdge) (i : Nat) (row : Row) : Row :=
  if source = i then { row with outgoing := some edge } else row

theorem same_edgedRow (source : Nat) (edge : WrapEdge) (i : Nat) (row : Row) :
    row.Same (edgedRow source edge i row) := by
  unfold edgedRow
  split_ifs <;> rfl

def published (t : Terminal) (source : Nat) (edge : WrapEdge) (seq : SequentialEdge) : Terminal :=
  t.withGrid fun g => { g.setOutgoing source (some edge) with
    nextEdgeId := nextU64 g.nextEdgeId
    sequentialEdge := some seq }

theorem getElem?_published (t : Terminal) (source : Nat) (edge : WrapEdge) (seq : SequentialEdge)
    (i : Nat) : (t.published source edge seq).grid.cells[i]? =
      t.grid.cells[i]?.map (edgedRow source edge i) :=
  List.getElem?_modify ..

theorem behind_published (seam : Option Nat) (head : Option Row) (source : Nat) (edge : WrapEdge)
    (seq : SequentialEdge) (i : Nat) :
    ∃ f : Row → Row, (∀ row : Row, row.Same (f row)) ∧
      behind seam head (t.published source edge seq).grid.cells i =
        (behind seam head t.grid.cells i).map f := by
  unfold behind
  split_ifs
  · exact ⟨id, fun _ => rfl, by simp⟩
  · exact ⟨_, same_edgedRow source edge (i + 1), t.getElem?_published source edge seq (i + 1)⟩

theorem Sound.published (ht : t.Sound) {source : Nat} {edge : WrapEdge} {row next : Row}
    (hrow : t.grid.cells[source]? = some row) (hnext : t.grid.cells[source + 1]? = some next)
    (hnames : row.Continues edge next) (hid : t.grid.nextEdgeId = some edge.edgeId)
    (hseam : t.grid.seam t.state.inAltScreen ≠ some (source + 1)) (seq : SequentialEdge) :
    (t.published source edge seq).Sound := by
  have hcells := t.getElem?_published source edge seq
  refine ⟨ht.domain, ht.saved, ?_, ?_, ht.savedContinued, ?_⟩
  · refine ht.ids.of_sublist rfl ?_
    have hmap : (t.published source edge seq).grid.cells.map Row.rowId = t.grid.cells.map Row.rowId := by
      refine List.ext_getElem? fun i => ?_
      rw [List.getElem?_map, List.getElem?_map, hcells, Option.map_map]
      congr 1
      exact funext fun r => (same_edgedRow source edge i r).rowId
    rw [rowIds_eq, rowIds_eq, hmap]
  · intro i s' e hs' he'
    rw [hcells] at hs'
    obtain ⟨s, hs, rfl⟩ := Option.map_eq_some_iff.mp hs'
    obtain ⟨f, hf, hbehind⟩ := t.behind_published (t.grid.seam t.state.inAltScreen)
      t.savedRows.head? source edge seq i
    have hkept : ∀ u, behind (t.grid.seam t.state.inAltScreen) t.savedRows.head? t.grid.cells i =
        some u → s.Continues e u → ∃ u', behind (t.grid.seam t.state.inAltScreen) t.savedRows.head?
          (t.published source edge seq).grid.cells i = some u' ∧
            (edgedRow source edge i s).Continues e u' := by
      intro u hu hnames
      refine ⟨f u, by rw [hbehind, hu]; rfl, ?_⟩
      exact (edges none).names_kept (same_edgedRow ..) ((edges none).kept_of_same (hf u)) hnames
    rcases eq_or_ne source i with rfl | hne
    · -- the new edge
      cases hrow.symm.trans hs
      simp only [edgedRow, if_true] at he'
      cases he'
      exact hkept next (by rwa [behind_of_ne hseam]) hnames
    · simp only [edgedRow, if_neg hne] at he'
      obtain ⟨u, hu, hcontinues⟩ := ht.continued i s e hs he'
      exact hkept u hu hcontinues
  · intro row' hmem e he next' hnext'
    change nextU64 t.grid.nextEdgeId = some next' at hnext'
    rw [hid, nextU64, Option.bind_some] at hnext'
    split at hnext'
    · cases hnext'
      have hold : ∀ old ∈ t.grid.cells ++ t.savedRows, old.outgoing = some e → e.edgeId < edge.edgeId + 1 :=
        fun old hold he => Nat.lt_succ_of_lt (ht.issued old hold e he edge.edgeId hid)
      rcases List.mem_append.mp hmem with hmem | hmem
      · obtain ⟨i, hi⟩ := List.mem_iff_getElem?.mp hmem
        rw [hcells] at hi
        obtain ⟨s, hs, rfl⟩ := Option.map_eq_some_iff.mp hi
        unfold edgedRow at he
        split_ifs at he
        · cases he
          exact Nat.lt_succ_self _
        · exact hold s (List.mem_append_left _ (List.mem_of_getElem? hs)) he
      · exact hold row' (List.mem_append_right _ hmem) he
    · cases hnext'

theorem prints_published (ht : t.Sound) {source : Nat} {edge : WrapEdge} {row next : Row}
    (hrow : t.grid.cells[source]? = some row) (hnext : t.grid.cells[source + 1]? = some next)
    (hnames : row.Continues edge next) (hid : t.grid.nextEdgeId = some edge.edgeId)
    (hseam : t.grid.seam t.state.inAltScreen ≠ some (source + 1)) {seq : SequentialEdge}
    (hseq : row.rowId = some seq.source) : t.Prints (t.published source edge seq) := by
  have hcells := t.getElem?_published source edge seq
  have hat : ∀ {i : Nat} {s : Row}, (t.grid.cells ++ t.savedRows)[i]? = some s →
      s.rowId = some seq.source → source = i := fun hs hsource =>
    index_unique ht.ids.nodup (getElem?_append_of_eq_some hrow t.savedRows) hs hseq hsource
  refine ⟨ht.published hrow hnext hnames hid hseam seq, fun {s' e u'} hj => ?_, ?_⟩
  · cases hj with
    | active i hs' he hu' =>
        rw [hcells] at hs'
        obtain ⟨s, hs, rfl⟩ := Option.map_eq_some_iff.mp hs'
        rcases eq_or_ne source i with rfl | hne
        · simp only [edgedRow, if_true] at he
          cases he
          exact .inl ⟨_, hid, le_rfl⟩
        · simp only [edgedRow, if_neg hne] at he ⊢
          obtain ⟨f, hf, hbehind⟩ := t.behind_published (t.grid.seam t.state.inAltScreen)
            t.savedRows.head? source edge seq i
          change behind (t.grid.seam t.state.inAltScreen) t.savedRows.head?
            (t.published source edge seq).grid.cells i = some u' at hu'
          rw [hbehind] at hu'
          obtain ⟨u, hu, rfl⟩ := Option.map_eq_some_iff.mp hu'
          refine .inr ⟨s, u, .active i hs he hu, rfl, (edges _).kept_of_same (hf u), ?_⟩
          -- the stream goes on from another row
          intro seq' hmem hsource
          cases hmem
          exact absurd (hat (getElem?_append_of_eq_some hs t.savedRows) hsource) hne
    | saved i hs' he hu' =>
        refine .inr ⟨s', u', .saved i hs' he hu', rfl, (edges _).kept_of_same rfl, ?_⟩
        intro seq' hmem hsource
        cases hmem
        have hs : (t.grid.cells ++ t.savedRows)[t.grid.cells.length + i]? = some s' := by
          rw [List.getElem?_append_right (Nat.le_add_right _ _), Nat.add_sub_cancel_left]
          exact hs'
        have hlt := (List.getElem?_eq_some_iff.mp hrow).1
        have := hat hs hsource
        omega
  · rintro e ⟨n, hn, hle⟩
    change nextU64 t.grid.nextEdgeId = some n at hn
    rw [hid, nextU64, Option.bind_some] at hn
    split at hn
    · cases hn
      exact ⟨_, hid, Nat.le_of_succ_le hle⟩
    · cases hn

theorem prints_publishDeferredWrap? (ht : t.Sound) (pending : Option PendingWrap)
    (hhistory : t.state.inAltScreen = true → ∀ p ∈ pending, ∀ i < t.grid.scrollbackLen,
      ∀ row, t.grid.cells[i]? = some row → row.rowId ≠ some p.source) :
    Ensures (t.withGrid? (·.publishDeferredWrap? pending)) t.Prints := by
  have hnone : t.Prints (t.withGrid fun g => { g with sequentialEdge := none }) :=
    (carries_withGrid (.of_cells rfl (fun _ => rfl) rfl rfl rfl (by simp))).prints ht
  unfold Grid.publishDeferredWrap?
  cases pending with
  | none => exact .pure hnone
  | some pending =>
      refine .bind_some fun g hg => .pure ?_
      obtain ⟨row, -, hg⟩ := Option.bind_eq_some_iff.mp hg
      split at hg
      · cases hg
        exact hnone
      · split at hg
        · cases hg
          exact hnone
        next target _ source edge hedge =>
          cases hg
          obtain ⟨row, next, hrow, hnext, hsource, hnames, -, hid⟩ := Grid.wrapEdge?_eq hedge
          refine prints_published ht hrow hnext hnames hid (fun hseam => ?_) hsource
          obtain ⟨halt, hboundary⟩ := Grid.eq_of_mem_seam hseam
          exact hhistory halt pending rfl source (by omega) row hrow hsource

theorem prints_performDeferredWrap? (ht : t.Sound) : Ensures t.performDeferredWrap? t.Prints := by
  refine .bind_some fun ⟨pending, grid⟩ htake => .bind_some fun t₂ hline => ?_
  obtain ⟨⟨pendingWrap, hgrid⟩, hpending⟩ := Grid.takeQualifiedWrap?_eq htake
  dsimp only at hgrid hpending hline ⊢
  subst hgrid
  have hstart : t.Carries none
      { t with grid := { ({ t.grid with pendingWrap } : Grid).setWrapPending false with cursorX := 0 } } :=
    ⟨.of_cells rfl (fun _ => rfl) rfl rfl rfl (by simp [Grid.setWrapPending]), rfl, rfl⟩
  have hfeed : t.Carries none t₂ := hstart.trans (carries_lineFeed? _ t₂ hline)
  have hprints : t.Prints t₂ := hfeed.mono.prints ht
  refine (prints_publishDeferredWrap? hprints.sound pending ?_).mono fun _ h => hprints.trans h
  -- the row that wrapped is not one of the history, where the alternate screen is up
  intro halt p hp i hi row hrow hsource
  rw [hfeed.alt] at halt
  obtain ⟨source, hvisible, hid⟩ := hpending p hp
  have hids := hfeed.grid.history halt i hi
  rw [hrow, Option.map_some, hsource] at hids
  obtain ⟨row', hrow', hid'⟩ := Option.map_eq_some_iff.mp hids.symm
  have hindex := index_unique ht.ids.nodup (getElem?_append_of_eq_some hvisible t.savedRows)
    (getElem?_append_of_eq_some hrow' t.savedRows) hid hid'
  have hle := hfeed.grid.boundary halt
  omega

/-! ### Printing -/

theorem prints_armQualifiedWrap? (ht : t.Sound) (kind : WrapKind) (paddingCount : Nat) :
    Ensures (t.withGrid? (·.armQualifiedWrap? kind paddingCount)) t.Prints :=
  (carries_withGrid? (.bind_some fun _ _ => .pure
    (.of_cells rfl (fun _ => rfl) rfl rfl rfl fun _ h => h))).mono fun _ h => h.prints ht

theorem prints_handleCombiningMark? (ht : t.Sound) (c : Char) :
    Ensures (t.handleCombiningMark? c) t.Prints := by
  unfold handleCombiningMark?
  dsimp only
  generalize (if t.grid.wrapPending = true then t.grid.cursorX else t.grid.cursorX - 1) = x
  split
  next => exact .pure (.refl ht)
  next hy =>
    split
    · exact .pure (.refl ht)
    · split
      · exact .pure (.refl ht)
      · refine .bind_some fun row _ => .bind_some fun cell _ => ?_
        have hpush : ∀ x, Ensures (t.withGrid? (·.pushPrintCombining? t.grid.cursorY x c)) t.Prints :=
          fun x => (carries_withGrid? (Grid.carries_pushPrintCombining? (by omega) x c)).mono
            fun _ h => h.prints ht
        generalize (if cell.width = 0 ∧ 0 < x then x - 1 else x) = x
        split
        · exact hpush x
        · exact .pure (.refl ht)

theorem prints_putChar? (ht : t.Sound) (c : Char) (width : Nat) :
    Ensures (t.putChar? c width) t.Prints := by
  unfold putChar?
  dsimp only
  split
  next =>
    refine .bind (Q := fun r => t.Prints r.2)
      ((t.carries_internWithGc? _).mono fun _ h => h.prints ht) ?_
    rintro ⟨styleId, t₁⟩ h₁
    dsimp only at h₁ ⊢
    refine .bind (Q := t.Prints) ((carries_withGrid? (Grid.carries_setCell? _ true _ _ _)).mono
      fun _ h => h₁.trans (h.prints h₁.sound)) fun t₂ h₂ => ?_
    have hmove : ∀ cursorX, t.Prints (t₂.withGrid fun g => { g with cursorX }) := by
      intro cursorX
      have hcarries : t₂.Carries t₂.grid.sequentialEdge (t₂.withGrid fun g => { g with cursorX }) :=
        carries_of_rows rfl rfl rfl rfl rfl rfl rfl rfl
      exact h₂.trans (hcarries.prints h₂.sound)
    split
    · split
      · exact (prints_armQualifiedWrap? (hmove _).sound .normal 0).mono fun _ h => (hmove _).trans h
      · exact .pure (hmove _)
    · exact .pure (hmove _)
  next => exact .pure (.refl ht)

theorem prints_wideAtMargin? (ht : t.Sound) (width : Nat) :
    Ensures (t.wideAtMargin? width) fun r => ∀ t' ∈ r, t.Prints t' := by
  have hrefl : ∀ t' ∈ some t, t.Prints t' := fun t' h => by
    cases h
    exact .refl ht
  unfold wideAtMargin?
  split
  · split
    · split
      · exact .pure (by simp)
      · have hwrap : ∀ t₁, t.Prints t₁ → Ensures (do
            let t ← t₁.withGrid? (·.armQualifiedWrap? .wideEarly 1)
            let t ← t.performDeferredWrap?
            some (some t)) fun r => ∀ t' ∈ r, t.Prints t' := by
          intro t₁ h₁
          refine .bind (prints_armQualifiedWrap? h₁.sound .wideEarly 1) fun t₂ h₂ => ?_
          refine .bind (prints_performDeferredWrap? h₂.sound) fun t₃ h₃ => .pure fun t' h => ?_
          cases h
          exact (h₁.trans h₂).trans h₃
        split
        · refine .bind (Q := fun r => t.Prints r.2) (t.carries_blankCell?.mono fun _ h => h.prints ht) ?_
          rintro ⟨blank, t₁⟩ h₁
          refine .bind ((carries_withGrid? (Grid.carries_setWideEarlyPadding? _ _ _ _)).mono
            fun _ h => h₁.trans (h.prints h₁.sound)) hwrap
        · exact hwrap t (.refl ht)
    · exact .pure (by simp)
  · exact .pure hrefl

theorem prints_putAtMargin? (h : t.Prints t') (c : Char) (width : Nat) : Ensures (do
    match ← t'.wideAtMargin? width with
    | none => some t'
    | some t => t.putChar? c width) t.Prints := by
  refine .bind (prints_wideAtMargin? h.sound _) fun r hr => ?_
  cases r with
  | none => exact .pure h
  | some t₃ =>
      have h₃ := h.trans (hr t₃ rfl)
      exact (prints_putChar? h₃.sound _ _).mono fun _ h => h₃.trans h

theorem prints_print? (charWidth : Char → Nat) (ht : t.Sound) (c : Char) :
    Ensures (t.print? charWidth c) t.Prints := by
  unfold print?
  dsimp only
  have hlast : t.Prints (t.withState fun s => { s with lastPrintedChar := c }) :=
    (carries_withState rfl rfl).prints ht
  generalize (t.withState fun s => { s with lastPrintedChar := c }) = t₁ at hlast ⊢
  generalize t₁.grid.modes.mapCharset c = c
  split
  · exact (prints_handleCombiningMark? hlast.sound _).mono fun _ h => hlast.trans h
  · split
    · exact .bind ((prints_performDeferredWrap? hlast.sound).mono fun _ h => hlast.trans h)
        fun _ h => prints_putAtMargin? h _ _
    · exact prints_putAtMargin? hlast _ _

theorem prints_times (charWidth : Char → Nat) (ht : t.Sound) (c : Char) (n : Nat) :
    Ensures (times n (·.print? charWidth c) t) t.Prints :=
  .times (.refl ht) fun t₁ h => (prints_print? charWidth h.sound c).mono fun _ h' => h.trans h'

end Terminal

end QuorumDispatch.Screen
