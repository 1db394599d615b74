import QuorumDispatch.Screen.Emulator
import QuorumDispatch.Lib.Links

/-!
What the operations of a grid do to the edges between its rows. An operation carries the
provenance of a grid when each edge there is afterwards was there before, between the same
two rows: the first did not change, and the second only as the print stream goes on in it.

While the alternate screen is up the last history row runs on into the rows that were set
aside, which are not in the deque: the history ends at a seam.
-/

namespace QuorumDispatch.Screen

open Lib

/-! ### Edges -/

namespace Row

def Same (r r' : Row) : Prop := r.cut = r'.cut

structure Continues (source : Row) (edge : WrapEdge) (target : Row) : Prop where
  source_id : source.rowId.isSome
  target_id : target.rowId = some edge.target
  source_len : source.len = edge.validWidth
  target_len : target.len = edge.validWidth

/-- The row behind `source` is still itself, and still what it was unless the stream
writes on from `source` into it. -/
structure Kept (stream : Option SequentialEdge) (source target target' : Row) : Prop where
  id : target'.rowId = target.rowId
  len : target'.len = target.len
  same : target.Same target' ∨
    ∃ seq ∈ stream, source.rowId = some seq.source ∧ target.rowId = some seq.target

variable {r r' r'' : Row}

theorem Same.trans (h : r.Same r') (h' : r'.Same r'') : r.Same r'' := Eq.trans h h'

theorem Same.rowId (h : r.Same r') : r'.rowId = r.rowId := (congrArg Row.rowId h).symm

theorem Same.toLine (h : r.Same r') : r'.toLine = r.toLine := (congrArg Row.toLine h).symm

theorem Same.len (h : r.Same r') : r'.len = r.len := congrArg Line.len h.toLine

theorem same_cut (r : Row) : r.Same r.cut := rfl

end Row

def edges (stream : Option SequentialEdge) : Linkage Row WrapEdge where
  link := Row.outgoing
  names := Row.Continues
  same := Row.Same
  kept := Row.Kept stream
  same_refl _ := rfl
  same_trans := Row.Same.trans
  kept_of_same h := ⟨h.rowId, h.len, .inl h⟩
  kept_trans := by
    intro s s' u u' u'' hs hu hu'
    refine ⟨hu'.id.trans hu.id, hu'.len.trans hu.len, ?_⟩
    rcases hu.same with hsame | hstream
    · rcases hu'.same with hsame' | ⟨seq, hseq, hsource, htarget⟩
      · exact .inl (hsame.trans hsame')
      · exact .inr ⟨seq, hseq, hs.rowId ▸ hsource, hu.id ▸ htarget⟩
    · exact .inr hstream
  names_kept := by
    intro s s' e u u' hs hu h
    exact
      { source_id := hs.rowId ▸ h.source_id
        target_id := hu.id.trans h.target_id
        source_len := hs.len.trans h.source_len
        target_len := hu.len.trans h.target_len }

abbrev Continued (seam : Option Nat) (head : Option Row) (rows : List Row) : Prop :=
  (edges none).Linked seam head rows

theorem Row.Kept.mono {stream : Option SequentialEdge} {s u u' : Row} (h : s.Kept none u u') :
    s.Kept stream u u' where
  id := h.id
  len := h.len
  same := h.same.imp_right fun ⟨seq, hseq, _⟩ => absurd hseq (by simp)

/-! ### Row ids -/

def rowIds (rows : List Row) : List Nat := rows.filterMap Row.rowId

theorem rowIds_eq (rows : List Row) : rowIds rows = (rows.map Row.rowId).filterMap id := by
  rw [rowIds, List.filterMap_map]
  rfl

namespace Grid

/-- The ids of the rows and of those set aside were issued once each. -/
structure IdsOk (g : Grid) (saved : List Row) : Prop where
  nodup : (rowIds (g.cells ++ saved)).Nodup
  issued : ∀ id ∈ rowIds (g.cells ++ saved), ∀ next, g.nextRowId = some next → id < next

variable {g g' g'' : Grid} {saved : List Row}

theorem IdsOk.of_sublist (h : g.IdsOk saved) (hnext : g'.nextRowId = g.nextRowId)
    (hsub : (rowIds g'.cells).Sublist (rowIds g.cells)) : g'.IdsOk saved := by
  have hsub : (rowIds (g'.cells ++ saved)).Sublist (rowIds (g.cells ++ saved)) := by
    simpa [rowIds] using hsub
  refine ⟨h.nodup.sublist hsub, fun id hid next heq => ?_⟩
  exact h.issued id (hsub.subset hid) next (hnext ▸ heq)

theorem IdsOk.forget (h : g.IdsOk saved) : g.IdsOk [] := by
  have hsub : (rowIds (g.cells ++ [])).Sublist (rowIds (g.cells ++ saved)) := by
    simp [rowIds]
  exact ⟨h.nodup.sublist hsub, fun id hid => h.issued id (hsub.subset hid)⟩

theorem IdsOk.insert (h : g.IdsOk saved) {k : Nat} (hk : k ≤ g.cells.length) {row : Row}
    (hrow : row.rowId = g.nextRowId) (hcells : g'.cells = g.cells.insertIdx k row)
    (hnext : g'.nextRowId = nextU64 g.nextRowId) : g'.IdsOk saved := by
  have hperm : (rowIds (g'.cells ++ saved)).Perm (rowIds (row :: (g.cells ++ saved))) := by
    rw [hcells]
    exact ((List.perm_insertIdx row g.cells hk).append_right saved).filterMap _
  cases hid : g.nextRowId with
  | none =>
      -- exhaustion is sticky: rows without an id from now on
      have hnone : rowIds (row :: (g.cells ++ saved)) = rowIds (g.cells ++ saved) := by
        simp [rowIds, hrow, hid]
      rw [hnone] at hperm
      refine ⟨hperm.nodup_iff.mpr h.nodup, fun id _ next heq => ?_⟩
      simp [hnext, hid, nextU64] at heq
  | some next =>
      have hcons : rowIds (row :: (g.cells ++ saved)) = next :: rowIds (g.cells ++ saved) := by
        simp [rowIds, hrow, hid]
      rw [hcons] at hperm
      refine ⟨hperm.nodup_iff.mpr (List.nodup_cons.mpr ⟨fun hmem => ?_, h.nodup⟩), ?_⟩
      · exact lt_irrefl _ (h.issued next hmem next hid)
      · intro id hmem next' heq
        rw [hnext, hid, nextU64, Option.bind_some] at heq
        split at heq
        · cases heq
          rcases List.mem_cons.mp (hperm.mem_iff.mp hmem) with rfl | hmem
          · exact Nat.lt_succ_self _
          · exact Nat.lt_succ_of_lt (h.issued id hmem next hid)
        · cases heq

/-! ### Carrying -/

def seam (g : Grid) (alt : Bool) : Option Nat := if alt then some g.scrollbackLen else none

theorem seam_congr {alt : Bool} (h : alt = true → g'.scrollbackLen = g.scrollbackLen) :
    g'.seam alt = g.seam alt := by
  unfold seam
  split_ifs with halt
  · rw [h halt]
  · rfl

theorem eq_of_mem_seam {alt : Bool} {b : Nat} (h : b ∈ g.seam alt) :
    alt = true ∧ g.scrollbackLen = b := by
  unfold seam at h
  split_ifs at h with halt
  · exact ⟨halt, Option.some.inj h⟩
  · cases h

/-- What is carried from `g` to `g'` by an operation that creates no edge. The stream may
write into the row that it has come to. -/
structure Carries (alt : Bool) (stream : Option SequentialEdge) (g g' : Grid) : Prop where
  links : ∀ head, (edges stream).Inherits head (g.seam alt) g.cells (g'.seam alt) g'.cells
  ids : ∀ saved, g.IdsOk saved → g'.IdsOk saved
  edgeId : g'.nextEdgeId = g.nextEdgeId
  sequential : ∀ seq ∈ g'.sequentialEdge, g.sequentialEdge = some seq
  domain : g'.inAltDomain = g.inAltDomain
  boundary : alt = true → g'.scrollbackLen ≤ g.scrollbackLen
  history : alt = true → ∀ i < g'.scrollbackLen,
    g'.cells[i]?.map Row.rowId = g.cells[i]?.map Row.rowId

variable {alt : Bool} {stream : Option SequentialEdge}

theorem Carries.refl (alt : Bool) (stream : Option SequentialEdge) (g : Grid) :
    Carries alt stream g g where
  links _ := .refl _ _ _
  ids _ := id
  edgeId := rfl
  sequential _ h := h
  domain := rfl
  boundary _ := le_rfl
  history _ _ _ := rfl

theorem Carries.trans (h : Carries alt stream g g') (h' : Carries alt stream g' g'') :
    Carries alt stream g g'' where
  links head := (h.links head).trans (h'.links head)
  ids saved hg := h'.ids saved (h.ids saved hg)
  edgeId := h'.edgeId.trans h.edgeId
  sequential seq hseq := h.sequential seq (h'.sequential seq hseq)
  domain := h'.domain.trans h.domain
  boundary halt := (h'.boundary halt).trans (h.boundary halt)
  history halt i hi :=
    (h'.history halt i hi).trans (h.history halt i (hi.trans_le (h'.boundary halt)))

theorem Carries.mono (h : Carries alt none g g') : Carries alt stream g g' where
  __ := h
  links head i s' e hs' he' := by
    obtain ⟨j, s, hs, he, hsame, hbehind⟩ := h.links head i s' e hs' he'
    refine ⟨j, s, hs, he, hsame, fun u hu hnames => ?_⟩
    obtain ⟨u', hu', hkept⟩ := hbehind u hu hnames
    exact ⟨u', hu', Row.Kept.mono hkept⟩

theorem Carries.of_map (F : Nat → Row → Row) (hF : ∀ i, g'.cells[i]? = g.cells[i]?.map (F i))
    (hid : ∀ i r, (F i r).rowId = r.rowId)
    (hlinks : ∀ head, (edges stream).Inherits head (g.seam alt) g.cells (g.seam alt) g'.cells)
    (hboundary : alt = true → g'.scrollbackLen = g.scrollbackLen) (hrow : g'.nextRowId = g.nextRowId)
    (hedge : g'.nextEdgeId = g.nextEdgeId) (hdomain : g'.inAltDomain = g.inAltDomain)
    (hseq : ∀ seq ∈ g'.sequentialEdge, g.sequentialEdge = some seq) :
    Carries alt stream g g' where
  links head := by
    rw [seam_congr hboundary]
    exact hlinks head
  ids saved h := by
    refine h.of_sublist hrow ?_
    have hmap : g'.cells.map Row.rowId = g.cells.map Row.rowId := by
      refine List.ext_getElem? fun i => ?_
      rw [List.getElem?_map, List.getElem?_map, hF, Option.map_map]
      congr 1
      exact funext fun r => hid i r
    rw [rowIds_eq, rowIds_eq, hmap]
  edgeId := hedge
  sequential := hseq
  domain := hdomain
  boundary halt := (hboundary halt).le
  history _ i _ := by
    rw [hF, Option.map_map]
    congr 1
    exact funext fun r => hid i r

theorem Carries.of_cuts (F : Nat → Row → Row) (hF : ∀ i, g'.cells[i]? = g.cells[i]?.map (F i))
    (hcut : ∀ i r, F i r = r ∨ F i r = r.cut)
    (hboundary : alt = true → g'.scrollbackLen = g.scrollbackLen) (hrow : g'.nextRowId = g.nextRowId)
    (hedge : g'.nextEdgeId = g.nextEdgeId) (hdomain : g'.inAltDomain = g.inAltDomain)
    (hseq : ∀ seq ∈ g'.sequentialEdge, g.sequentialEdge = some seq) :
    Carries alt stream g g' := by
  refine .of_map F hF (fun i r => ?_) (fun head => ?_) hboundary hrow hedge hdomain hseq
  · rcases hcut i r with h | h <;> rw [h]
    rfl
  · refine .of_cuts F hF fun i r => ?_
    rcases hcut i r with h | h <;> rw [h]
    · exact ⟨rfl, fun _ he => he⟩
    · exact ⟨r.same_cut, fun e he => by cases he⟩

theorem Carries.of_cells (hcells : g'.cells = g.cells)
    (hboundary : alt = true → g'.scrollbackLen = g.scrollbackLen) (hrow : g'.nextRowId = g.nextRowId)
    (hedge : g'.nextEdgeId = g.nextEdgeId) (hdomain : g'.inAltDomain = g.inAltDomain)
    (hseq : ∀ seq ∈ g'.sequentialEdge, g.sequentialEdge = some seq) :
    Carries alt stream g g' :=
  .of_cuts (fun _ => id) (by simp [hcells]) (fun _ _ => .inl rfl) hboundary hrow hedge hdomain hseq

end Grid

end QuorumDispatch.Screen
