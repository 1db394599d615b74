import QuorumDispatch.Screen.RefineTerminal

/-!
Every run of the screen: from `Screen.new` each callback and each resize returns, and
both terminals keep showing a display in order. The geometry of the grid follows.
-/

namespace QuorumDispatch.Screen

open Lib

set_option linter.dupNamespace false

/-! ### Resizing -/

namespace Grid

variable {g : Grid} {v : Sheet}

theorem Shows.growRows (h : g.Shows v) (rows : Nat) : (g.growRows rows).Shows (v.growRows rows) := by
  have hs := h.restoreScrollback (Nat.min_le_right (rows - v.rows) v.history.length)
  unfold Grid.growRows Sheet.growRows
  rw [h.rows_eq, h.boundary, show g.cursorY = v.cursorY from congrArg Frame.cursorY h.frame]
  exact hs.withFrame fun f => { f with
    cursorY := satAdd v.cursorY (min (min (rows - v.rows) v.history.length) 65535) }

theorem Shows.times_pushTopRow? (h : g.Shows v) {n : Nat} (hn : n ≤ v.lines.length) :
    Returns (times n Grid.pushTopRow? g) (·.Shows (Sheet.capture^[n] v)) := by
  induction n generalizing g v with
  | zero => exact .pure h
  | succ n ih =>
      have hne : v.lines ≠ [] := by
        rw [← List.length_pos_iff]
        omega
      refine .bind (h.pushTopRow? hne) fun g' hg' => ih hg' ?_
      rw [Sheet.capture_lines, List.length_tail]
      omega

/-- Chopping takes rows below the cursor only, and no more than it was asked to. -/
theorem chopBlankBottomRows_spec (v : Sheet) (hv : v.cursorY < v.lines.length) (max : Nat) :
    (v.chopBlankBottomRows max).1 ≤ max ∧
      (v.chopBlankBottomRows max).2.toFrame = v.toFrame ∧
      v.cursorY < (v.chopBlankBottomRows max).2.lines.length := by
  induction max generalizing v with
  | zero => exact ⟨le_rfl, rfl, hv⟩
  | succ max ih =>
      unfold Sheet.chopBlankBottomRows
      split_ifs with hchop
      · obtain ⟨hle, hframe, hlen⟩ := ih { v with lines := v.lines.dropLast } (by
          show v.cursorY < v.lines.dropLast.length
          rw [List.length_dropLast]
          omega)
        exact ⟨Nat.succ_le_succ hle, hframe, hlen⟩
      · exact ⟨Nat.zero_le _, rfl, hv⟩

theorem cursorY_iterate_capture (v : Sheet) (n : Nat) :
    (Sheet.capture^[n] v).cursorY = v.cursorY := by
  induction n generalizing v with
  | zero => rfl
  | succ n ih => rw [Function.iterate_succ_apply, ih, v.capture_toFrame]

theorem Shows.shrinkRows? (h : g.Shows v) (hv : v.cursorY < v.lines.length) (rows : Nat) :
    Returns (g.shrinkRows? rows) (·.Shows (v.shrinkRows rows)) := by
  obtain ⟨hle, hframe, hlen⟩ := chopBlankBottomRows_spec v hv (v.rows - rows)
  have hy : (v.chopBlankBottomRows (v.rows - rows)).2.cursorY = v.cursorY :=
    congrArg Frame.cursorY hframe
  unfold Grid.shrinkRows? Sheet.shrinkRows
  rw [h.rows_eq]
  refine .bind (h.chopBlankBottomRows? _) fun r hr => ?_
  obtain ⟨chopped, g'⟩ := r
  obtain ⟨hchopped, hg'⟩ := hr
  dsimp only at hchopped hg' ⊢
  have hg'y : g'.cursorY = v.cursorY := (congrArg Frame.cursorY hg'.frame).trans hy
  generalize hpush : min (v.rows - rows - (v.chopBlankBottomRows (v.rows - rows)).1) v.cursorY = push
  refine .bind_eq (a := ()) (by simp [hchopped, hle]) ?_
  rw [hchopped, hg'y, hpush]
  split_ifs with hpos
  · refine .bind (hg'.times_pushTopRow? (n := push) (by omega)) fun g'' hg'' => ?_
    have hg''y : g''.cursorY = v.cursorY := by
      rw [show g''.cursorY = _ from congrArg Frame.cursorY hg''.frame, cursorY_iterate_capture, hy]
    refine .bind_eq (a := ()) (by simp [hg''y, show push ≤ v.cursorY by omega]) (.pure ?_)
    exact hg''.withFrame fun f => { f with cursorY := f.cursorY - push }
  · obtain rfl : push = 0 := by omega
    exact .pure (hg'.withFrame fun f => { f with cursorY := f.cursorY - 0 })

theorem Shows.resizeGrid? (h : g.Shows v) (hv : v.Fits) (inAlt : Bool) (cols rows : UInt16) :
    Returns (g.resizeGrid? inAlt cols rows) fun g' =>
      ∃ keepWrap, g'.Shows (v.resizeGrid inAlt cols rows keepWrap) := by
  have hy : v.cursorY < v.lines.length := hv.lt_length hv.cursorY
  unfold Grid.resizeGrid? Sheet.resizeGrid
  rw [h.rows_eq]
  -- a grid that grows does not shrink
  by_cases hgrow : inAlt = false ∧ v.rows < rows.toNat
  · simp only [hgrow, and_self, if_true, true_and]
    have hnot : ¬ (0 < rows.toNat ∧ rows.toNat < v.rows) := by omega
    rw [if_neg hnot, if_neg hnot]
    refine .bind_eq rfl ((h.growRows rows.toNat).resize? cols rows |>.mono ?_)
    rintro g' ⟨keepWrap, hg', -⟩
    exact ⟨keepWrap, hg'⟩
  · simp only [hgrow, if_false]
    have hresize : ∀ {g' : Grid} {v' : Sheet}, g'.Shows v' → Returns (g'.resize? cols rows)
        fun g'' => ∃ keepWrap, g''.Shows (v'.resize (sanitizeDimensions cols rows) keepWrap) := by
      intro g' v' hg'
      refine (hg'.resize? cols rows).mono ?_
      rintro g'' ⟨keepWrap, hg'', -⟩
      exact ⟨keepWrap, hg''⟩
    split_ifs
    · exact .bind (h.shrinkRows? hy rows.toNat) fun g' hg' => hresize hg'
    · exact .bind_eq rfl (hresize h)

theorem newRows_lines (cols : Nat) (start : Option Nat) (n : Nat) :
    (newRows cols start n).1.map Row.toLine = List.replicate n (Line.new cols) := by
  induction n generalizing start with
  | zero => rfl
  | succ n ih => simpa [newRows, List.replicate_succ] using ih (nextU64 start)

theorem shows_new (cols rows : UInt16) (limit : Nat) (logicalShadow : Bool) :
    (Grid.new cols rows limit logicalShadow).Shows (Sheet.new cols rows limit logicalShadow) where
  frame := rfl
  cells := newRows_lines _ _ _
  boundary := rfl

end Grid

/-! ### The terminal -/

/-- An event in order: a title may only be cut at a character boundary. -/
def Event.Ok : Event → Prop
  | .callback (.oscDispatch params _) => Terminal.TitleFits params
  | _ => True

/-- The displays that an event may lead to. Only after a resize is there a choice. -/
inductive Display.Step (charWidth : Char → Nat) (d : Display) : Event → Display → Prop where
  | callback (c : Callback) : Step charWidth d (.callback c) (d.callback charWidth c)
  | resize (cols rows : UInt16) (keepWrap : Bool) :
      Step charWidth d (.resize cols rows) (d.resize cols rows keepWrap)

theorem Display.Step.ok {charWidth : Char → Nat} {d d' : Display} {e : Event}
    (h : d.Step charWidth e d') (hd : d.Ok) : d'.Ok := by
  cases h with
  | callback c => exact (Display.effect_callback charWidth hd c).ok
  | resize cols rows keepWrap => exact Display.ok_resize hd cols rows keepWrap

namespace Terminal

variable {t : Terminal} {d : Display}

theorem Shows.callback? (charWidth : Char → Nat) (h : t.Shows d) (hd : d.Ok) {c : Callback}
    (hc : Event.Ok (.callback c)) :
    Returns (t.callback? charWidth c) (·.Shows (d.callback charWidth c)) := by
  cases c with
  | print c => exact h.print? charWidth hd c
  | execute byte => exact h.execute? hd byte
  | csiDispatch params intermediates action =>
      exact h.csiDispatch? charWidth hd params intermediates action
  | escDispatch intermediates byte => exact h.escDispatch? hd intermediates byte
  | oscDispatch params bell => exact h.oscDispatch? params bell hc

theorem Shows.resize? (h : t.Shows d) (hd : d.Ok) (cols rows : UInt16) :
    Returns (t.resize? cols rows) fun t' =>
      ∃ keepWrap, t'.Shows (d.resize cols rows keepWrap) := by
  have halt : t.state.inAltScreen = d.state.inAltScreen :=
    congrArg ScreenState.inAltScreen h.state
  unfold Terminal.resize?
  rw [halt]
  refine .bind (h.grid.resizeGrid? hd.fits _ cols rows) ?_
  rintro g ⟨keepWrap, hg⟩
  exact .pure ⟨keepWrap, hg, h.state⟩

theorem Shows.step? (charWidth : Char → Nat) (h : t.Shows d) (hd : d.Ok) {e : Event} (he : e.Ok) :
    Returns (t.step? charWidth e) fun t' => ∃ d', d.Step charWidth e d' ∧ t'.Shows d' := by
  cases e with
  | callback c =>
      exact (h.callback? charWidth hd he).mono fun t' ht' => ⟨_, .callback c, ht'⟩
  | resize cols rows =>
      refine (h.resize? hd cols rows).mono ?_
      rintro t' ⟨keepWrap, ht'⟩
      exact ⟨_, .resize cols rows keepWrap, ht'⟩

/-- A title command that returned has cut its title at a character boundary. -/
theorem titleFits_of_oscDispatch? {t' : Terminal} {params : List Bytes} {bell : Bool}
    (h : t.oscDispatch? params bell = some t') : TitleFits params := by
  intro hnumber title htitle hlong
  have hne : params.isEmpty = false := by
    cases params with
    | nil => simp [oscNumber] at hnumber
    | cons => rfl
  have hcut : ∃ cut, byteSlice? title maxTitle = some cut := by
    rw [Option.mem_def] at htitle
    unfold oscDispatch? at h
    obtain hnumber | hnumber := hnumber <;>
      · simp only [hne, hnumber, htitle, if_neg (Nat.not_le.mpr hlong), Bool.false_eq_true,
          if_false] at h
        obtain ⟨cut, hcut, -⟩ := Option.bind_eq_some_iff.mp h
        exact ⟨cut, hcut⟩
  obtain ⟨cut, hcut⟩ := hcut
  simp [hcut]

theorem ok_of_step? {t' : Terminal} {charWidth : Char → Nat} {e : Event}
    (h : t.step? charWidth e = some t') : e.Ok := by
  cases e with
  | resize => trivial
  | callback c =>
      cases c with
      | oscDispatch params bell => exact titleFits_of_oscDispatch? h
      | _ => trivial

theorem Shows.of_step? {t' : Terminal} {charWidth : Char → Nat} {e : Event} (h : t.Shows d)
    (hd : d.Ok) (hstep : t.step? charWidth e = some t') :
    ∃ d', d.Step charWidth e d' ∧ t'.Shows d' ∧ d'.Ok := by
  obtain ⟨t'', ht'', d', hd', hs⟩ := h.step? charWidth hd (ok_of_step? hstep)
  cases ht''.symm.trans hstep
  exact ⟨d', hd', hs, hd'.ok hd⟩

def InOrder (t : Terminal) : Prop := ∃ d : Display, d.Ok ∧ t.Shows d

theorem InOrder.step? (charWidth : Char → Nat) (h : t.InOrder) {e : Event} (he : e.Ok) :
    Returns (t.step? charWidth e) InOrder := by
  obtain ⟨d, hd, hs⟩ := h
  refine (hs.step? charWidth hd he).mono ?_
  rintro t' ⟨d', hstep, ht'⟩
  exact ⟨d', hstep.ok hd, ht'⟩

theorem ok_new (cols rows : UInt16) (limit : Nat) (logicalShadow : Bool) :
    ({ sheet := .new cols rows limit logicalShadow } : Display).Ok := by
  have hcols := (sanitizeDimensions cols rows).cols_pos
  have hrows := (sanitizeDimensions cols rows).rows_pos
  have hslots : StyleTable.SlotsOk {} := by simp [StyleTable.SlotsOk]
  have htitle : byteLen [] ≤ maxTitle := by decide
  refine ⟨⟨⟨hcols, hrows, Nat.zero_le _, ?_, Display.length_defaultTabStops _, hslots⟩, ?_, ?_⟩,
    le_rfl, Nat.zero_le _, fun _ => rfl, by simp, htitle, by simp⟩
  · show (sanitizeDimensions cols rows).rows - 1 < (sanitizeDimensions cols rows).rows
    omega
  · exact List.length_replicate
  · intro line hline
    rw [List.eq_of_mem_replicate hline]
    exact List.length_replicate

theorem shows_new (cols rows : UInt16) (limit : Nat) (logicalShadow : Bool) :
    Shows { grid := .new cols rows limit logicalShadow }
      { sheet := .new cols rows limit logicalShadow } := ⟨Grid.shows_new .., rfl⟩

theorem inOrder_new (cols rows : UInt16) (limit : Nat) (logicalShadow : Bool) :
    InOrder { grid := .new cols rows limit logicalShadow } :=
  ⟨_, ok_new cols rows limit logicalShadow, shows_new ..⟩

/-- The geometry of a terminal. The scrollback is bounded by the limit of the main
screen, which is set aside with its rows while the alternate screen is up. -/
structure Geometry (t : Terminal) : Prop where
  cells : t.grid.cells.length = t.grid.scrollbackLen + t.grid.rows
  rows : ∀ row ∈ t.grid.visibleRows, row.len = t.grid.cols
  cursorX : t.grid.cursorX < t.grid.cols
  cursorY : t.grid.cursorY < t.grid.rows
  region : t.grid.scrollTop ≤ t.grid.scrollBottom ∧ t.grid.scrollBottom < t.grid.rows
  pending : t.grid.pendingStart ≤ t.grid.scrollbackLen
  tabs : t.grid.tabStops.length = t.grid.cols
  limit : t.state.inAltScreen = false → t.grid.scrollbackLen ≤ t.grid.scrollbackLimit
  saved : t.state.inAltScreen = true → ∃ saved top bottom,
    t.state.savedGrid = some saved ∧ t.grid.scrollbackLen ≤ saved.scrollbackLimit ∧
      (∀ row ∈ saved.visibleCells, row.len = saved.saveCols) ∧
      t.state.savedScrollRegion = some (top, bottom) ∧
      top ≤ bottom ∧ bottom < saved.visibleCells.length

theorem InOrder.geometry (h : t.InOrder) : t.Geometry := by
  obtain ⟨d, hd, hs⟩ := h
  have hf := hs.frame
  have hb := hs.grid.boundary
  have hlen : t.grid.cells.length = t.grid.scrollbackLen + t.grid.rows := by
    rw [hs.grid.length, hb, hs.grid.rows_eq, hd.fits.rows]
  have hin : t.grid.toFrame.Inside := hf ▸ hd.fits.toInside
  refine ⟨hlen, ?_, hin.cursorX, hin.cursorY, ⟨hin.top, hin.bottom⟩, ?_, hin.tabs, ?_, ?_⟩
  · intro row hrow
    have hmem : row ∈ t.grid.cells.drop t.grid.scrollbackLen := List.mem_of_mem_take hrow
    have hline : row.toLine ∈ d.sheet.lines := by
      have := List.mem_map_of_mem (f := Row.toLine) hmem
      rwa [List.map_drop, hs.grid.cells, hb, List.drop_left] at this
    exact (hd.fits.cols _ hline).trans hs.grid.cols_eq.symm
  · rw [hb, show t.grid.pendingStart = d.sheet.pendingStart from congrArg Frame.pendingStart hf]
    exact hd.pending
  · intro hmain
    have halt : d.state.inAltScreen = false := hs.state ▸ hmain
    rw [hb, show t.grid.scrollbackLimit = d.sheet.scrollbackLimit from
      congrArg Frame.scrollbackLimit hf, ← Display.mainLimit_of_main hd halt]
    exact hd.history
  · intro halt
    have hstate := hs.state
    obtain ⟨-, saved, hsaved, hok⟩ := hd.alt (hstate ▸ halt)
    obtain ⟨top, bottom, hregion, htop, hbottom⟩ := hok.region
    obtain ⟨savedGrid, hgrid, rfl⟩ : ∃ savedGrid, t.state.savedGrid = some savedGrid ∧
        savedGrid.shown = saved := by
      rw [← hstate] at hsaved
      exact Option.map_eq_some_iff.mp hsaved
    have hhist := hd.history
    rw [Display.mainLimit, hsaved] at hhist
    refine ⟨savedGrid, top, bottom, hgrid, hb ▸ hhist, fun row hrow => ?_, ?_, htop, ?_⟩
    · exact hok.cols row.toLine (List.mem_map_of_mem hrow)
    · exact (congrArg ScreenState.savedScrollRegion hstate).trans hregion
    · simpa [SavedGrid.shown] using hbottom

end Terminal

/-! ### The screen -/

namespace Screen

structure InOrder (s : Screen) : Prop where
  terminal : s.terminal.InOrder
  logical : s.logical.InOrder

theorem inOrder_new (cols rows : UInt16) (limit : Nat) : (Screen.new cols rows limit).InOrder where
  terminal := Terminal.inOrder_new cols rows limit false
  logical := Terminal.inOrder_new cols rows limit true

theorem InOrder.step? {s : Screen} (charWidth : Char → Nat) (h : s.InOrder) {e : Event}
    (he : e.Ok) : Returns (s.step? charWidth e) InOrder := by
  unfold Screen.step?
  refine .bind (h.terminal.step? charWidth he) fun terminal hterminal => ?_
  refine .bind (h.logical.step? charWidth he) fun logical hlogical => ?_
  exact .pure ⟨hterminal, hlogical⟩

theorem InOrder.run? {s : Screen} (charWidth : Char → Nat) (h : s.InOrder) {events : List Event}
    (hevents : ∀ e ∈ events, e.Ok) : Returns (s.run? charWidth events) InOrder :=
  .foldlM h fun _ e he hs => hs.step? charWidth (hevents e he)

def runMeets (charWidth : Char → Nat) (cond : Terminal → Event → Bool) : Screen → List Event → Bool
  | _, [] => true
  | s, e :: events =>
      cond s.terminal e && cond s.logical e &&
        (s.step? charWidth e).all (runMeets charWidth cond · events)

theorem run?_invariant {charWidth : Char → Nat} {cond : Terminal → Event → Bool}
    {I : Terminal → Prop} (hstep : ∀ {t t' : Terminal} {e : Event}, I t → cond t e = true →
      t.step? charWidth e = some t' → I t') {pre post : List Event} {s s' : Screen}
    (h : I s.terminal ∧ I s.logical) (hmeets : s.runMeets charWidth cond (pre ++ post) = true)
    (hrun : s.run? charWidth pre = some s') : I s'.terminal ∧ I s'.logical := by
  induction pre generalizing s with
  | nil =>
      cases hrun
      exact h
  | cons e pre ih =>
      simp only [List.cons_append, runMeets, Bool.and_eq_true] at hmeets
      obtain ⟨⟨hterminal, hlogical⟩, hrest⟩ := hmeets
      obtain ⟨s₁, hstep₁, hrun⟩ := Option.bind_eq_some_iff.mp hrun
      rw [hstep₁, Option.all_some] at hrest
      refine ih ?_ hrest hrun
      obtain ⟨t, ht, hstep₁⟩ := Option.bind_eq_some_iff.mp hstep₁
      obtain ⟨l, hl, heq⟩ := Option.bind_eq_some_iff.mp hstep₁
      cases heq
      exact ⟨hstep h.1 hterminal ht, hstep h.2 hlogical hl⟩

/-- Every run returns, whatever the sequences and the sizes, and the geometry holds of
both terminals afterwards. -/
theorem run?_geometry (charWidth : Char → Nat) (cols rows : UInt16) (limit : Nat)
    (events : List Event) (hevents : ∀ e ∈ events, e.Ok) :
    Returns ((Screen.new cols rows limit).run? charWidth events) fun s =>
      s.terminal.Geometry ∧ s.logical.Geometry :=
  ((inOrder_new cols rows limit).run? charWidth hevents).mono fun _ hs =>
    ⟨hs.terminal.geometry, hs.logical.geometry⟩

/-- A run with a title that is set, and a resize of the alternate screen. -/
theorem run?_geometry_title :
    Returns ((Screen.new 3 2 1).run? (fun _ => 1)
      [.callback (.oscDispatch [ascii "2", ascii "hi"] true),
        .callback (.csiDispatch [[1049]] (ascii "?") 'h'), .resize 2 5]) fun s =>
      s.terminal.Geometry ∧ s.logical.Geometry := by
  refine run?_geometry _ 3 2 1 _ fun e he => ?_
  simp only [List.mem_cons, List.not_mem_nil, or_false] at he
  rcases he with rfl | rfl | rfl
  · intro _ title htitle hlong
    obtain rfl : ['h', 'i'] = title := Option.some.inj (by rw [← htitle]; decide)
    exact absurd hlong (by decide)
  · trivial
  · trivial

/-- The alternate screen keeps the scrollback of the main one, at a limit of zero. -/
theorem run?_exceeds_active_limit :
    Returns ((Screen.new 1 1 1).run? (fun _ => 1)
      [.callback (.print 'a'), .callback (.execute 0x0A),
        .callback (.csiDispatch [[1049]] (ascii "?") 'h')]) fun s =>
      s.terminal.grid.scrollbackLimit < s.terminal.grid.scrollbackLen :=
  ⟨_, rfl, by decide⟩

end Screen

end QuorumDispatch.Screen
