import QuorumDispatch.Screen.ProvenancePrint
import QuorumDispatch.Screen.AltScreen

/-!
The edges of the logical grid over whole runs: which rows they join in every state that is
reached, and which of them stay from one state to the next.
-/

namespace QuorumDispatch.Screen

open Lib

set_option linter.dupNamespace false

def Event.prints : Event → Bool
  | .callback (.print _) => true
  | .callback (.csiDispatch _ _ action) => action == 'b'
  | _ => false

namespace Terminal

variable {t t' : Terminal} {charWidth : Char → Nat}

/-! ### The callbacks that do not print -/

theorem keeps_setDecPrivateMode? (ht : t.Sound) (hgeometry : t.Geometry) (mode : Nat)
    (enable : Bool) : Ensures (t.setDecPrivateMode? mode enable) (Keeps none t) := by
  have hmodes : ∀ f : TerminalModes → TerminalModes,
      Ensures (some (t.withModes f)) (Keeps none t) := fun f => .pure (t.carries_withModes f).keeps
  have hscreen : ∀ saveCursor : Bool, Ensures
      (if enable then t.enterAltScreen? saveCursor else t.exitAltScreen? saveCursor)
      (Keeps none t) := by
    intro saveCursor
    split
    · exact t.keeps_enterAltScreen? saveCursor
    · exact keeps_exitAltScreen? ht hgeometry saveCursor
  unfold setDecPrivateMode?
  split
  · exact hmodes _
  · refine .pure (Carries.keeps ?_)
    split
    · exact (t.carries_withModes _).trans (carries_moveCursor _ _)
    · exact t.carries_withModes _
  · exact hmodes _
  · exact .pure (Carries.keeps (carries_of_rows rfl rfl rfl rfl rfl rfl rfl rfl))
  · exact hmodes _
  · exact hmodes _
  · exact hmodes _
  · exact hmodes _
  · exact hmodes _
  · exact hmodes _
  · refine .pure (Carries.keeps ?_)
    split
    · exact t.carries_saveCursor none false
    · exact t.carries_restoreCursor false
  · exact hmodes _
  · exact hscreen true
  · exact hscreen false
  · exact hscreen false
  · exact .pure (.refl ..)

theorem keeps_csiSetDecPrivateMode? (ht : t.Sound) (horder : t.InOrder) (ps : List (List Nat))
    (enable : Bool) : Ensures (t.csiSetDecPrivateMode? ps enable) (Keeps none t) := by
  have hloop : Ensures (t.csiSetDecPrivateMode? ps enable) fun t' => Keeps none t t' ∧ t'.InOrder := by
    refine .foldlM ⟨.refl .., horder⟩ ?_
    rintro t₁ p - ⟨hkeeps, d, hd, hs⟩
    cases p with
    | nil => exact .pure ⟨hkeeps, d, hd, hs⟩
    | cons mode rest =>
        intro t₂ hstep
        have hgeometry : t₁.Geometry := InOrder.geometry ⟨d, hd, hs⟩
        refine ⟨hkeeps.trans (keeps_setDecPrivateMode? (hkeeps.sound ht) hgeometry mode enable t₂ hstep), ?_⟩
        exact ⟨_, (Display.effect_setDecPrivateMode hd mode enable).ok,
          (hs.setDecPrivateMode? hd mode enable).of_eq hstep⟩
  exact hloop.mono fun _ h => h.1

theorem keeps_csiDispatch? (charWidth : Char → Nat) (ht : t.Sound) (horder : t.InOrder)
    (ps : List (List Nat)) (intermediates : Bytes) {action : Char} (haction : action ≠ 'b') :
    Ensures (t.csiDispatch? charWidth ps intermediates action) (Keeps none t) := by
  have hmove : ∀ f : Frame → Frame, Ensures (some (t.moveCursor f)) (Keeps none t) :=
    fun f => .pure (t.carries_moveCursor f).keeps
  have hif : ∀ {c : Prop} [Decidable c] {t₁ t₂ : Terminal}, t.Carries none t₁ → t.Carries none t₂ →
      Ensures (some (if c then t₁ else t₂)) (Keeps none t) := by
    intro c _ t₁ t₂ h₁ h₂
    split_ifs
    · exact .pure h₁.keeps
    · exact .pure h₂.keeps
  have hrefl : t.Carries none t := .refl ..
  unfold csiDispatch?
  dsimp only
  split
  · exact hmove _
  · exact hmove _
  · exact hmove _
  · exact hmove _
  · exact hmove _
  · exact hmove _
  · exact hmove _
  · exact hmove _
  · exact hmove _
  · exact hmove _
  · exact (t.carries_csiEraseDisplay? _).mono fun _ h => h.keeps
  · exact (t.carries_csiEraseLine? _).mono fun _ h => h.keeps
  · exact (t.carries_csiEraseCharacter? _).mono fun _ h => h.keeps
  · exact (t.carries_csiDeleteCharacter? _).mono fun _ h => h.keeps
  · exact (t.carries_csiInsertCharacter? _).mono fun _ h => h.keeps
  · exact absurd rfl haction
  · exact .pure (carries_withState rfl rfl).keeps
  · exact hif (t.carries_pushResponse _) hrefl
  · split_ifs
    · exact .pure (t.carries_pushResponse _).keeps
    · exact .pure (t.carries_pushResponse _).keeps
    · exact .pure hrefl.keeps
  · exact hif (t.carries_withModes _) hrefl
  · exact (carries_times _ carries_scrollUp? t).mono fun _ h => h.keeps
  · split_ifs
    · exact (carries_times _ carries_scrollDown? t).mono fun _ h => h.keeps
    · exact .pure hrefl.keeps
  · exact (t.carries_csiDeleteLines? _).mono fun _ h => h.keeps
  · exact (t.carries_csiInsertLines? _).mono fun _ h => h.keeps
  · exact hif (t.carries_csiSetScrollingRegion _ _) hrefl
  · exact hif (t.carries_saveCursor none false) hrefl
  · exact hif (t.carries_restoreCursor false) hrefl
  · refine hif ?_ hrefl
    split
    · exact carries_withGrid (t.grid.carries_withFrame fun f => f.clearTabStop t.grid.cursorX)
    · exact carries_withGrid (t.grid.carries_withFrame _)
    · exact hrefl
  · exact (t.carries_csiWindow? _ _).mono fun _ h => h.keeps
  · split_ifs
    · exact keeps_csiSetDecPrivateMode? ht horder ps true
    · exact .pure hrefl.keeps
  · split_ifs
    · exact keeps_csiSetDecPrivateMode? ht horder ps false
    · exact .pure hrefl.keeps
  · exact .pure hrefl.keeps

theorem keeps_escDispatch? (t : Terminal) (intermediates : Bytes) (byte : UInt8) :
    Ensures (t.escDispatch? intermediates byte) (Keeps none t) := by
  have hmodes : ∀ f : TerminalModes → TerminalModes,
      Ensures (some (t.withModes f)) (Keeps none t) := fun f => .pure (t.carries_withModes f).keeps
  have hfeed : ∀ t₁, t.Carries none t₁ → Ensures t₁.lineFeed? (Keeps none t) :=
    fun t₁ h => (carries_lineFeed? t₁).mono fun _ h' => (h.trans h').keeps
  unfold escDispatch?
  split
  · exact .pure (carries_withGrid (t.grid.carries_withFrame fun f => f.setTabStop t.grid.cursorX)).keeps
  · exact hfeed _ (carries_withGrid (t.grid.carries_setWrapPending false))
  · exact hfeed _ (carries_withGrid ((t.grid.carries_withFrame fun f => { f with cursorX := 0 }).trans
      (Grid.carries_setWrapPending _ false)))
  · exact (t.carries_reverseIndex?).mono fun _ h => h.keeps
  · exact .pure (t.carries_saveCursor none false).keeps
  · exact .pure (t.carries_restoreCursor false).keeps
  · exact t.keeps_fullReset?
  · exact hmodes _
  · exact hmodes _
  · exact hmodes _
  · exact hmodes _
  · exact hmodes _
  · exact hmodes _
  · exact (t.carries_alignmentPattern?).mono fun _ h => h.keeps
  · exact .pure (.refl ..)

/-- What does not print makes no edge and keeps one between unchanged rows only. -/
theorem keeps_step? (charWidth : Char → Nat) (ht : t.Sound) (horder : t.InOrder) {event : Event}
    (hprints : event.prints = false) : Ensures (t.step? charWidth event) (Keeps none t) := by
  cases event with
  | resize cols rows =>
      have hresize : Ensures (t.resize? cols rows) (t.Carries none) :=
        carries_withGrid? (t.grid.carries_resizeGrid? ht.domain cols rows)
      exact hresize.mono fun _ h => h.keeps
  | callback c =>
      cases c with
      | print c => cases hprints
      | execute byte => exact (t.carries_execute? byte).mono fun _ h => h.keeps
      | csiDispatch params intermediates action =>
          exact keeps_csiDispatch? charWidth ht horder params intermediates (by simpa [Event.prints] using hprints)
      | escDispatch intermediates byte => exact t.keeps_escDispatch? intermediates byte
      | oscDispatch params bell => exact (t.carries_oscDispatch? params bell).mono fun _ h => h.keeps

theorem prints_step? (charWidth : Char → Nat) (ht : t.Sound) {event : Event}
    (hprints : event.prints = true) : Ensures (t.step? charWidth event) t.Prints := by
  cases event with
  | resize => cases hprints
  | callback c =>
      cases c with
      | print c => exact prints_print? charWidth ht c
      | csiDispatch params intermediates action =>
          obtain rfl : action = 'b' := by simpa [Event.prints] using hprints
          exact prints_times charWidth ht _ _
      | execute | escDispatch | oscDispatch => cases hprints

/-! ### Where an edge leads -/

/-- The row in front of the one at `k`, of all rows. -/
def before (t : Terminal) (k : Nat) : Option Row :=
  if k < t.grid.cells.length then t.grid.cells[k - 1]?
  else if k = t.grid.cells.length then
    (t.grid.seam t.state.inAltScreen).bind fun n => t.grid.cells[n - 1]?
  else t.savedRows[k - 1 - t.grid.cells.length]?

theorem Joins.before {s u : Row} {e : WrapEdge} (h : t.Joins s e u) :
    ∃ k, (t.grid.cells ++ t.savedRows)[k]? = some u ∧ t.before k = some s := by
  unfold Terminal.before
  cases h with
  | active i hs he hu =>
      by_cases hseam : t.grid.seam t.state.inAltScreen = some (i + 1)
      · -- what was set aside begins behind the last row of the deque
        rw [hseam, behind_seam, List.head?_eq_getElem?] at hu
        refine ⟨t.grid.cells.length, ?_, ?_⟩
        · rw [List.getElem?_append_right le_rfl, Nat.sub_self]
          exact hu
        · rw [if_neg (lt_irrefl _), if_pos rfl, hseam]
          exact hs
      · rw [behind_of_ne hseam] at hu
        refine ⟨i + 1, getElem?_append_of_eq_some hu t.savedRows, ?_⟩
        rw [if_pos (List.getElem?_eq_some_iff.mp hu).1]
        exact hs
  | saved i hs he hu =>
      refine ⟨t.grid.cells.length + (i + 1), ?_, ?_⟩
      · rw [List.getElem?_append_right (Nat.le_add_right _ _), Nat.add_sub_cancel_left]
        exact hu
      · rw [if_neg (by omega), if_neg (by omega),
          show t.grid.cells.length + (i + 1) - 1 - t.grid.cells.length = i by omega]
        exact hs

theorem Sound.joins_unique (h : t.Sound) {s s' u u' : Row} {e : WrapEdge} (hj : t.Joins s e u)
    (hj' : t.Joins s' e u') : s = s' ∧ u = u' := by
  obtain ⟨k, hu, hs⟩ := hj.before
  obtain ⟨k', hu', hs'⟩ := hj'.before
  have hk : k = k' :=
    index_unique h.ids.nodup hu hu' (h.continues hj).target_id (h.continues hj').target_id
  subst hk
  exact ⟨Option.some.inj (hs.symm.trans hs'), Option.some.inj (hu.symm.trans hu')⟩

/-- An edge that is there was made before. -/
theorem Sound.not_fresh (h : t.Sound) {s u : Row} {e : WrapEdge} (hj : t.Joins s e u) :
    ¬ t.Fresh e := by
  rintro ⟨next, hnext, hle⟩
  have hmem : ∃ row ∈ t.grid.cells ++ t.savedRows, row.outgoing = some e := by
    cases hj with
    | active i hs he => exact ⟨s, List.mem_append_left _ (List.mem_of_getElem? hs), he⟩
    | saved i hs he => exact ⟨s, List.mem_append_right _ (List.mem_of_getElem? hs), he⟩
  obtain ⟨row, hrow, he⟩ := hmem
  exact absurd (h.issued row hrow e he next hnext) (Nat.not_lt.mpr hle)

def StreamsInto (t : Terminal) (source target : Row) : Prop :=
  ∃ seq ∈ t.grid.sequentialEdge, source.rowId = some seq.source ∧ target.rowId = some seq.target

/-- An edge that stays, stays between the same two rows, and only the stream that goes on
along it writes into the second. -/
theorem Sound.survives (h : t.Sound) (horder : t.InOrder) {event : Event}
    (hstep : t.step? charWidth event = some t') {s s' u u' : Row} {e : WrapEdge}
    (hj : t.Joins s e u) (hj' : t'.Joins s' e u') :
    s.Same s' ∧ (u.Same u' ∨ event.prints = true ∧ t.StreamsInto s u) := by
  cases hprints : event.prints with
  | false =>
      obtain ⟨s₀, u₀, hj₀, hs, hu⟩ := (keeps_step? charWidth h horder hprints t' hstep).joins h hj'
      obtain ⟨rfl, rfl⟩ := h.joins_unique hj hj₀
      refine ⟨hs, .inl (hu.same.resolve_right ?_)⟩
      rintro ⟨seq, hseq, -⟩
      cases hseq
  | true =>
      rcases (prints_step? charWidth h hprints t' hstep).joins hj' with hfresh | ⟨s₀, u₀, hj₀, hs, hu, -⟩
      · exact absurd hfresh (h.not_fresh hj)
      · obtain ⟨rfl, rfl⟩ := h.joins_unique hj hj₀
        exact ⟨hs, hu.same.imp_right fun hstream => ⟨rfl, hstream⟩⟩

/-! ### The domains -/

/-- The sequences of rows that are shown one behind the other: while the alternate screen
is up, its rows, and the history with the main rows that are set aside. -/
def domains (t : Terminal) : List (List Row) :=
  match t.state.savedGrid with
  | none => [t.grid.cells]
  | some saved =>
      [t.grid.scrollbackRows ++ saved.visibleCells, t.grid.cells.drop t.grid.scrollbackLen]

/-- In one of the domains the edge leads from `s` to the row that follows. -/
def Joined (t : Terminal) (s : Row) (e : WrapEdge) (u : Row) : Prop :=
  ∃ rows ∈ t.domains, ∃ i : Nat, rows[i]? = some s ∧ s.outgoing = some e ∧ rows[i + 1]? = some u

theorem Sound.domains_main (h : t.Sound) (hmain : t.state.inAltScreen = false) :
    t.domains = [t.grid.cells] := by
  have hsaved : t.state.savedGrid = none := by
    rw [← Option.not_isSome_iff_eq_none, h.saved, hmain]
    exact Bool.false_ne_true
  rw [domains, hsaved]

theorem Sound.domains_alt (h : t.Sound) (halt : t.state.inAltScreen = true) :
    t.domains = [t.mainRows, t.grid.cells.drop t.grid.scrollbackLen] := by
  obtain ⟨saved, hsaved⟩ := Option.isSome_iff_exists.mp (h.saved.trans halt)
  rw [domains, hsaved, Terminal.mainRows, savedRows, hsaved]
  rfl

theorem behind_visible (t : Terminal) (i : Nat) :
    behind (t.grid.seam t.state.inAltScreen) t.savedRows.head? t.grid.cells
      (t.grid.scrollbackLen + i) = t.grid.cells[t.grid.scrollbackLen + (i + 1)]? := by
  refine behind_of_ne (fun hseam => ?_) _ _
  have := (Grid.eq_of_mem_seam hseam).2
  omega

theorem Sound.joins_of_joined (h : t.Sound) (hlen : t.grid.scrollbackLen ≤ t.grid.cells.length)
    {s u : Row} {e : WrapEdge} (hj : t.Joined s e u) : t.Joins s e u := by
  obtain ⟨rows, hrows, i, hs, he, hu⟩ := hj
  cases halt : t.state.inAltScreen with
  | false =>
      rw [h.domains_main halt, List.mem_singleton] at hrows
      subst hrows
      refine .active i hs he ?_
      rw [behind_of_ne]
      · exact hu
      · simp [Grid.seam, halt]
  | true =>
      rw [h.domains_alt halt, List.mem_pair] at hrows
      rcases hrows with rfl | rfl
      · exact .of_mainRows halt hlen hs he hu
      · rw [List.getElem?_drop] at hs hu
        exact .active _ hs he ((t.behind_visible i).trans hu)

theorem Sound.continued_domains (h : t.Sound) (hlen : t.grid.scrollbackLen ≤ t.grid.cells.length)
    {rows : List Row} (hrows : rows ∈ t.domains) : Continued none none rows := by
  cases halt : t.state.inAltScreen with
  | false =>
      rw [h.domains_main halt, List.mem_singleton] at hrows
      subst hrows
      intro i s e hs he
      obtain ⟨u, hu, hnames⟩ := h.continued i s e hs he
      rw [behind_of_ne (by simp [Grid.seam, halt])] at hu
      exact ⟨u, hu, hnames⟩
  | true =>
      rw [h.domains_alt halt, List.mem_pair] at hrows
      rcases hrows with rfl | rfl
      · exact h.mainRows halt hlen
      · intro i s e hs he
        rw [List.getElem?_drop] at hs
        obtain ⟨u, hu, hnames⟩ := h.continued _ s e hs he
        rw [behind_none, List.getElem?_drop]
        exact ⟨u, (t.behind_visible i).symm.trans hu, hnames⟩

/-! ### Runs -/

theorem Sound.step? (h : t.Sound) (horder : t.InOrder) {event : Event}
    (hstep : t.step? charWidth event = some t') : t'.Sound ∧ t'.InOrder := by
  refine ⟨?_, (horder.step? charWidth (ok_of_step? hstep)).of_eq hstep⟩
  cases hprints : event.prints with
  | false => exact (keeps_step? charWidth h horder hprints t' hstep).sound h
  | true => exact (prints_step? charWidth h hprints t' hstep).sound

theorem Sound.run? (h : t.Sound) (horder : t.InOrder) {events : List Event}
    (hrun : t.run? charWidth events = some t') : t'.Sound ∧ t'.InOrder := by
  have hloop : Ensures (t.run? charWidth events) fun t' => t'.Sound ∧ t'.InOrder :=
    .foldlM ⟨h, horder⟩ fun _ _ _ hs _ hstep => hs.1.step? hs.2 hstep
  exact hloop t' hrun

end Terminal

/-! ### New grids -/

namespace Grid

theorem outgoing_newRows (cols : Nat) (start : Option Nat) (n : Nat) :
    ∀ row ∈ (newRows cols start n).1, row.outgoing = none := by
  induction n generalizing start with
  | zero => simp [newRows]
  | succ n ih =>
      intro row hrow
      rcases List.mem_cons.mp hrow with rfl | hrow
      · rfl
      · exact ih (nextU64 start) row hrow

/-- New rows have the ids from `start` on, which were not issued before. -/
theorem rowIds_newRows (cols : Nat) (start : Option Nat) (n : Nat) :
    (rowIds (newRows cols start n).1).Nodup ∧
      (∀ id ∈ rowIds (newRows cols start n).1, ∃ first ∈ start, first ≤ id ∧
        ∀ next ∈ (newRows cols start n).2, id < next) ∧
      ∀ next ∈ (newRows cols start n).2, ∃ first ∈ start, first ≤ next := by
  induction n generalizing start with
  | zero => exact ⟨by simp [newRows, rowIds], by simp [newRows, rowIds], fun next h => ⟨next, h, le_rfl⟩⟩
  | succ n ih =>
      obtain ⟨hnodup, hids, hnext⟩ := ih (nextU64 start)
      have hlt : ∀ second ∈ nextU64 start, ∃ first ∈ start, first < second := by
        intro second hsecond
        obtain ⟨first, hfirst, hsecond⟩ := Option.bind_eq_some_iff.mp hsecond
        split_ifs at hsecond
        cases hsecond
        exact ⟨first, hfirst, Nat.lt_succ_self first⟩
      have hrows : rowIds (newRows cols start (n + 1)).1 =
          start.toList ++ rowIds (newRows cols (nextU64 start) n).1 := by
        cases start <;> rfl
      rw [hrows]
      refine ⟨?_, fun id hid => ?_, fun next hmem => ?_⟩
      · refine List.nodup_append.mpr ⟨by cases start <;> simp, hnodup, ?_⟩
        rintro a ha b hb rfl
        obtain ⟨second, hsecond, hle, -⟩ := hids a hb
        obtain ⟨first, hfirst, hlt⟩ := hlt second hsecond
        cases (Option.mem_toList.mp ha).symm.trans hfirst
        omega
      · rcases List.mem_append.mp hid with hid | hid
        · refine ⟨id, Option.mem_toList.mp hid, le_rfl, fun next hmem => ?_⟩
          obtain ⟨second, hsecond, hle⟩ := hnext next hmem
          obtain ⟨first, hfirst, hlt⟩ := hlt second hsecond
          cases (Option.mem_toList.mp hid).symm.trans hfirst
          omega
        · obtain ⟨second, hsecond, hle, hissued⟩ := hids id hid
          obtain ⟨first, hfirst, hlt⟩ := hlt second hsecond
          exact ⟨first, hfirst, by omega, hissued⟩
      · obtain ⟨second, hsecond, hle⟩ := hnext next hmem
        obtain ⟨first, hfirst, hlt⟩ := hlt second hsecond
        exact ⟨first, hfirst, by omega⟩

end Grid

theorem Terminal.sound_new (cols rows : UInt16) (limit : Nat) (logicalShadow : Bool) :
    Terminal.Sound { grid := .new cols rows limit logicalShadow } := by
  obtain ⟨hnodup, hids, -⟩ := Grid.rowIds_newRows (sanitizeDimensions cols rows).cols (some 0)
    (sanitizeDimensions cols rows).rows
  have hnone := Grid.outgoing_newRows (sanitizeDimensions cols rows).cols (some 0)
    (sanitizeDimensions cols rows).rows
  refine ⟨rfl, rfl, ⟨?_, ?_⟩, fun i s e hs he => ?_, fun i s e hs => ?_, fun row hrow e he => ?_⟩
  · simpa [Terminal.savedRows, Grid.new] using hnodup
  · intro id hid next hnext
    obtain ⟨-, -, -, hissued⟩ := hids id (by simpa [Terminal.savedRows, Grid.new] using hid)
    exact hissued next hnext
  · cases (hnone s (List.mem_of_getElem? hs)).symm.trans he
  · simp [Terminal.savedRows] at hs
  · rw [show Terminal.savedRows { grid := .new cols rows limit logicalShadow } = [] from rfl,
      List.append_nil] at hrow
    cases (hnone row hrow).symm.trans he

/-! ### The screen -/

namespace Screen

/-- In every state that a run reaches the rows of the logical grid have ids of their own,
and every edge names the row that follows. From there an edge stays over an event only
between the same two rows, of which the first did not change, and the second only as the
print stream goes on along this very edge. -/
theorem run?_edges (charWidth : Char → Nat) (cols rows : UInt16) (limit : Nat)
    (events : List Event) (s : Screen)
    (hrun : (Screen.new cols rows limit).run? charWidth events = some s) :
    (rowIds (s.logical.grid.cells ++ s.logical.savedRows)).Nodup ∧
    (∀ domain ∈ s.logical.domains, ∀ (i : Nat) (row : Row) (edge : WrapEdge),
      domain[i]? = some row → row.outgoing = some edge →
        ∃ next, domain[i + 1]? = some next ∧ row.Continues edge next) ∧
    ∀ event s', s.step? charWidth event = some s' → ∀ edge row next row' next',
      s.logical.Joined row edge next → s'.logical.Joined row' edge next' →
        row.Same row' ∧
          (next.Same next' ∨ event.prints = true ∧ s.logical.StreamsInto row next) := by
  obtain ⟨hsound, horder⟩ := (Terminal.sound_new cols rows limit true).run?
    (Terminal.inOrder_new cols rows limit true) (run?_terminals hrun).2
  have hlen : ∀ {t : Terminal}, t.InOrder → t.grid.scrollbackLen ≤ t.grid.cells.length := by
    intro t ht
    rw [ht.geometry.cells]
    exact Nat.le_add_right _ _
  refine ⟨hsound.ids.nodup, fun domain hdomain i row edge hrow hedge => ?_, ?_⟩
  · obtain ⟨next, hnext, hcontinues⟩ :=
      hsound.continued_domains (hlen horder) hdomain i row edge hrow hedge
    rw [behind_none] at hnext
    exact ⟨next, hnext, hcontinues⟩
  · intro event s' hstep edge row next row' next' hj hj'
    have hlogical := (step?_terminals hstep).2
    obtain ⟨hsound', horder'⟩ := hsound.step? horder hlogical
    exact hsound.survives horder hlogical (hsound.joins_of_joined (hlen horder) hj)
      (hsound'.joins_of_joined (hlen horder') hj')

/-- A row wraps, and the margin is reached again with autowrap off. -/
def marginEvents : List Event :=
  [.callback (.print 'A'), .callback (.print 'B'), .callback (.print 'C'),
    .callback (.csiDispatch [[7]] (ascii "?") 'l'), .callback (.print 'D')]

def marginEdge : WrapEdge where
  edgeId := 0
  target := 1
  kind := .normal
  paddingCount := 0
  validWidth := 2

def wrappedRow : Row where
  cells := [{ c := 'A' }, { c := 'B' }]
  rowId := some 0
  contentRevision := some 2
  outgoing := some marginEdge

def marginRow (last : Char) (revision : Nat) : Row where
  cells := [{ c := 'C' }, { c := last }]
  rowId := some 1
  contentRevision := some revision

theorem joined_marginEvents :
    ∃ s s' : Screen, (Screen.new 2 2 5).run? (fun _ => 1) marginEvents = some s ∧
      s.step? (fun _ => 1) (.callback (.print 'E')) = some s' ∧
      s.logical.Joined wrappedRow marginEdge (marginRow 'D' 2) ∧
      s'.logical.Joined wrappedRow marginEdge (marginRow 'E' 3) := by
  have hjoined : ∀ {t : Terminal} {next : Row}, t.domains = [[wrappedRow, next]] →
      t.Joined wrappedRow marginEdge next := by
    intro t next h
    refine ⟨[wrappedRow, next], ?_, 0, rfl, rfl, rfl⟩
    rw [h]
    exact List.mem_cons_self
  exact ⟨_, _, rfl, rfl, hjoined (by decide), hjoined (by decide)⟩

theorem run?_edges_margin :
    ∃ s s' : Screen, (Screen.new 2 2 5).run? (fun _ => 1) marginEvents = some s ∧
      s.step? (fun _ => 1) (.callback (.print 'E')) = some s' ∧
      s.logical.StreamsInto wrappedRow (marginRow 'D' 2) := by
  obtain ⟨s, s', hrun, hstep, hj, hj'⟩ := joined_marginEvents
  refine ⟨s, s', hrun, hstep, ?_⟩
  obtain ⟨-, hnext⟩ := (run?_edges (fun _ => 1) 2 2 5 marginEvents s hrun).2.2 _ s' hstep _ _ _ _ _ hj hj'
  exact (hnext.resolve_left fun hsame => absurd hsame.toLine (by decide)).2

def AppendedTo (row row' : Row) : Prop :=
  ∃ n, row'.cells.take n = row.cells.take n ∧ ∀ cell ∈ row.cells.drop n, cell.c = ' '

/-- At the margin the last cell of the second row is written again, and the edge into the
row stays. -/
theorem edge_survives_overwrite :
    ¬ ∀ (events : List Event) (event : Event) (s s' : Screen) (edge : WrapEdge)
      (row next row' next' : Row), (Screen.new 2 2 5).run? (fun _ => 1) events = some s →
      s.step? (fun _ => 1) event = some s' → s.logical.Joined row edge next →
      s'.logical.Joined row' edge next' →
        row.Same row' ∧ (next.Same next' ∨ AppendedTo next next') := by
  intro h
  obtain ⟨s, s', hrun, hstep, hj, hj'⟩ := joined_marginEvents
  rcases (h marginEvents _ s s' _ _ _ _ _ hrun hstep hj hj').2 with hsame | ⟨n, htake, hblank⟩
  · exact absurd hsame.toLine (by decide)
  · rcases Nat.lt_or_ge n 2 with hn | hn
    · -- a cut in front of the last cell leaves its text behind
      have hcell : ({ c := 'D' } : Cell) ∈ (marginRow 'D' 2).cells.drop n := by
        rcases Nat.le_one_iff_eq_zero_or_eq_one.mp (Nat.le_of_lt_succ hn) with rfl | rfl <;> decide
      exact absurd (hblank _ hcell) (by decide)
    · rw [List.take_of_length_le hn, List.take_of_length_le hn] at htake
      exact absurd htake (by decide)

end Screen

end QuorumDispatch.Screen
