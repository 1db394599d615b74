import QuorumDispatch.Screen.AltScreen

/-!
The combining marks of a line. They are kept beside the cells, by column, and every operation moves
them with the columns. In every state that a run reaches no line has marks behind its end.
-/

namespace QuorumDispatch.Screen

open Lib

set_option linter.dupNamespace false

/-! ### Entries by column -/

section Entries

variable {α : Type} {xs : List (Nat × α)} {b c : Nat}

theorem lookup_filter_fst (p : Nat → Bool) (xs : List (Nat × α)) (c : Nat) :
    (xs.filter fun e => p e.1).lookup c = if p c then xs.lookup c else none := by
  induction xs with
  | nil => simp
  | cons e xs ih =>
      obtain ⟨k, a⟩ := e
      rw [List.filter_cons, List.lookup_cons]
      by_cases hc : c = k
      · subst hc
        dsimp only
        split_ifs with hp
        · simp
        · rw [ih, if_neg hp]
      · have hbeq : (c == k) = false := beq_false_of_ne hc
        dsimp only
        rw [hbeq]
        split_ifs with hp hpc hpc <;> simp only [List.lookup_cons, hbeq, ih, hpc] <;> simp

/-- Moved entries, where only those of one column come to `c`. -/
theorem lookup_map_fst {g : Nat → Nat} (h : ∀ e ∈ xs, g e.1 = c ↔ e.1 = b) :
    (xs.map fun e => (g e.1, e.2)).lookup c = xs.lookup b := by
  induction xs with
  | nil => rfl
  | cons e xs ih =>
      obtain ⟨he, hxs⟩ := List.forall_mem_cons.mp h
      have hkey : (c == g e.1) = (b == e.1) := by
        rw [Bool.eq_iff_iff, beq_iff_eq, beq_iff_eq]
        exact ⟨fun h => (he.mp h.symm).symm, fun h => (he.mpr h.symm).symm⟩
      rw [List.map_cons, List.lookup_cons, List.lookup_cons, hkey, ih hxs]

theorem lookup_map_fst_none {g : Nat → Nat} (h : ∀ e ∈ xs, g e.1 ≠ c) :
    (xs.map fun e => (g e.1, e.2)).lookup c = none := by
  rw [List.lookup_eq_none_iff]
  intro e he
  obtain ⟨e, hmem, rfl⟩ := List.mem_map.mp he
  exact bne_iff_ne.mpr (h e hmem).symm

end Entries

namespace Line

variable {l : Line} {cols x c n : Nat} {cell blank : Cell}

/-! ### The marks after each operation -/

@[simp] theorem combiningAt_set (l : Line) (x : Nat) (cell : Cell) :
    (l.set x cell).combiningAt c = l.combiningAt c := rfl

@[simp] theorem combiningAt_fixupWideCharAt (l : Line) (cols x : Nat) :
    (l.fixupWideCharAt cols x).combiningAt c = l.combiningAt c := by
  unfold fixupWideCharAt
  split_ifs <;> rfl

@[simp] theorem combiningAt_blankContinuation (l : Line) (x : Nat) (blank : Cell) :
    (Display.blankContinuation x blank l).combiningAt c = l.combiningAt c := by
  unfold Display.blankContinuation
  dsimp only
  split_ifs <;> rfl

@[simp] theorem combiningAt_fixDeleted (l : Line) (x : Nat) (blank : Cell) :
    (Display.fixDeleted x blank l).combiningAt c = l.combiningAt c := by
  unfold Display.fixDeleted
  split_ifs <;> simp

@[simp] theorem combiningAt_fixInserted (l : Line) (x : Nat) (blank : Cell) :
    (Display.fixInserted x blank l).combiningAt c = l.combiningAt c := by
  unfold Display.fixInserted
  split_ifs <;> simp

theorem combiningAt_foldl_set (xs : List Nat) (l : Line) :
    (xs.foldl (fun l i => l.set i blank) l).combiningAt c = l.combiningAt c := by
  induction xs generalizing l with
  | nil => rfl
  | cons x xs ih => exact ih _

theorem combiningAt_clearCombiningRange (l : Line) (start stop : Nat) :
    (l.clearCombiningRange start stop).combiningAt c =
      if start ≤ c ∧ c < stop then [] else l.combiningAt c := by
  have hlookup := lookup_filter_fst (fun k => decide (k < start) || decide (stop ≤ k)) l.combining c
  change (List.lookup c (l.combining.filter _)).getD [] = _
  rw [hlookup]
  unfold combiningAt
  grind

theorem combiningAt_erase (l : Line) (cols start stop : Nat) (blank : Cell) :
    (l.erase cols start stop blank).combiningAt c =
      if start ≤ c ∧ c < stop then [] else l.combiningAt c := by
  unfold erase
  dsimp only
  rw [combiningAt_clearCombiningRange, combiningAt_foldl_set]
  split_ifs <;> simp

/-- The marks behind a removed column move up. -/
theorem combiningAt_remove (l : Line) (x : Nat) :
    (l.remove x).combiningAt c = if c < x then l.combiningAt c else l.combiningAt (c + 1) := by
  have hkept := lookup_filter_fst (· != x) l.combining
  have hmap : (l.remove x).combining = (l.combining.filter fun e => e.1 != x).map
      fun e => (if x < e.1 then e.1 - 1 else e.1, e.2) := by
    apply List.map_congr_left
    intro e _
    split_ifs <;> rfl
  have hne : ∀ e ∈ l.combining.filter (fun e => e.1 != x), e.1 ≠ x := fun e he => by
    simpa using (List.mem_filter.mp he).2
  have hmoved : (l.remove x).combining.lookup c = if c < x then l.combining.lookup c
      else l.combining.lookup (c + 1) := by
    rw [hmap]
    split_ifs with hc
    · rw [lookup_map_fst (b := c) (g := fun k => if x < k then k - 1 else k), hkept]
      · exact if_pos (by simp; omega)
      · intro e he
        have := hne e he
        split_ifs <;> omega
    · rw [lookup_map_fst (b := c + 1) (g := fun k => if x < k then k - 1 else k), hkept]
      · exact if_pos (by simp; omega)
      · intro e he
        have := hne e he
        split_ifs <;> omega
  unfold combiningAt
  rw [hmoved]
  split_ifs <;> rfl

theorem combiningAt_pop (hne : 0 < l.len) :
    l.pop.combiningAt c = if c + 1 = l.len then [] else l.combiningAt c := by
  have hcells : l.cells.isEmpty = false := by
    rw [List.isEmpty_eq_false_iff, ← List.length_pos_iff]
    exact hne
  have hpos : 0 < l.cells.length := hne
  have hlookup := lookup_filter_fst (· != l.cells.length - 1) l.combining c
  unfold combiningAt pop len
  rw [hcells]
  simp only [Bool.false_eq_true, if_false]
  rw [hlookup]
  split_ifs with hkeep hlast <;> simp_all <;> omega

/-- The marks at an inserted column and behind it move down. -/
theorem combiningAt_insert (l : Line) (cell : Cell) (hc : c < 65535) :
    (l.insert x cell).combiningAt c =
      if c < x then l.combiningAt c else if c = x then [] else l.combiningAt (c - 1) := by
  have hmap : (l.insert x cell).combining = l.combining.map
      fun e => (if x ≤ e.1 then min (e.1 + 1) 65535 else e.1, e.2) := by
    apply List.map_congr_left
    intro e _
    split_ifs <;> rfl
  unfold combiningAt
  rw [hmap]
  split_ifs with hlt heq
  · rw [lookup_map_fst (b := c) (g := fun k => if x ≤ k then min (k + 1) 65535 else k)]
    intro e he
    split_ifs <;> omega
  · rw [lookup_map_fst_none (g := fun k => if x ≤ k then min (k + 1) 65535 else k)]
    · rfl
    · intro e he
      split_ifs <;> omega
  · rw [lookup_map_fst (b := c - 1) (g := fun k => if x ≤ k then min (k + 1) 65535 else k)]
    intro e he
    split_ifs <;> omega

theorem combiningAt_deleteCells (l : Line) (cols x n : Nat) (blank : Cell) :
    (Display.deleteCells cols x n blank l).combiningAt c =
      if c < x then l.combiningAt c else l.combiningAt (c + min n (cols - x)) := by
  have hshift (l : Line) (k c : Nat) : ((fun l => (l.remove x).push blank)^[k] l).combiningAt c =
      if c < x then l.combiningAt c else l.combiningAt (c + k) := by
    induction k generalizing c with
    | zero => simp
    | succ k ih =>
        rw [Function.iterate_succ_apply']
        change (Line.remove _ x).combiningAt c = _
        rw [combiningAt_remove]
        split_ifs with hc
        · rw [ih, if_pos hc]
        · rw [ih, if_neg (by omega), show c + 1 + k = c + (k + 1) by omega]
  unfold Display.deleteCells
  rw [combiningAt_fixDeleted, hshift]
  simp

theorem len_insertCell (hlen : l.len = cols) (hx : x < cols) : (l.pop.insert x blank).len = cols := by
  rw [len_insert _ _ (by rw [len_pop]; omega), len_pop]
  omega

theorem combiningAt_insertCell (hlen : l.len = cols) (hcols : cols < 65536) (hx : x < cols) (hc : c < cols) :
    (l.pop.insert x blank).combiningAt c =
      if c < x then l.combiningAt c else if c = x then [] else l.combiningAt (c - 1) := by
  rw [combiningAt_insert _ _ (by omega)]
  split_ifs with hlt heq
  · rw [combiningAt_pop (by omega), if_neg (by omega)]
  · rfl
  · rw [combiningAt_pop (by omega), if_neg (by omega)]

theorem combiningAt_insertCells (hlen : l.len = cols) (hcols : cols < 65536) (hx : x < cols)
    (hc : c < cols) : (Display.insertCells cols x n blank l).combiningAt c =
      if c < x then l.combiningAt c else if c < x + min n (cols - x) then []
      else l.combiningAt (c - min n (cols - x)) := by
  have hshift {l : Line} (hlen : l.len = cols) (k c : Nat) (hc : c < cols) :
      ((fun l => l.pop.insert x blank)^[k] l).combiningAt c =
        if c < x then l.combiningAt c else if c < x + k then [] else l.combiningAt (c - k) := by
    induction k generalizing c with
    | zero =>
        split_ifs
        · rfl
        · omega
        · rfl
    | succ k ih =>
        have hlen' : ((fun l => l.pop.insert x blank)^[k] l).len = cols :=
          Display.len_iterate (fun l hl => len_insertCell hl hx) k hlen
        rw [Function.iterate_succ_apply', combiningAt_insertCell hlen' hcols hx hc]
        split_ifs with hlt heq hin hin
        · rw [ih _ hc, if_pos hlt]
        · rfl
        · omega
        · rw [ih _ (by omega), if_neg (by omega), if_pos (by omega)]
        · rw [ih _ (by omega), if_neg (by omega), if_neg (by omega),
            show c - 1 - k = c - (k + 1) by omega]
  unfold Display.insertCells
  rw [combiningAt_fixInserted, hshift (by simpa using hlen) _ _ hc]
  simp

/-! ### No marks behind the end -/

def MarksWithin (l : Line) : Prop := ∀ e ∈ l.combining, e.1 < l.len

theorem MarksWithin.combiningAt (h : l.MarksWithin) (hc : l.len ≤ c) : l.combiningAt c = [] := by
  have hnone : l.combining.lookup c = none := by
    rw [List.lookup_eq_none_iff]
    intro e he
    have := h e he
    exact bne_iff_ne.mpr (by omega)
  unfold Line.combiningAt
  rw [hnone]
  rfl

theorem marksWithin_of_nil (h : l.combining = []) : l.MarksWithin := by
  intro e he
  rw [h] at he
  cases he

/-- The same marks, or fewer, and no fewer columns. -/
theorem MarksWithin.of_subset {l' : Line} (h : l.MarksWithin) (hlen : l.len ≤ l'.len)
    (hsub : ∀ e ∈ l'.combining, e ∈ l.combining) : l'.MarksWithin :=
  fun e he => (h e (hsub e he)).trans_le hlen

theorem MarksWithin.set (h : l.MarksWithin) (x : Nat) (cell : Cell) : (l.set x cell).MarksWithin :=
  h.of_subset (by simp) fun _ he => he

theorem MarksWithin.fixupWideCharAt (h : l.MarksWithin) (cols x : Nat) :
    (l.fixupWideCharAt cols x).MarksWithin := by
  refine h.of_subset (by simp) fun e he => ?_
  unfold Line.fixupWideCharAt at he
  split_ifs at he <;> exact he

theorem MarksWithin.clearCombining (h : l.MarksWithin) (x : Nat) : (l.clearCombining x).MarksWithin :=
  h.of_subset le_rfl fun _ he => List.mem_of_mem_filter he

theorem MarksWithin.put (h : l.MarksWithin) (cols x : Nat) (cell : Cell) :
    (l.put cols x cell).MarksWithin := by
  have hfirst := ((h.fixupWideCharAt cols x).set x cell).clearCombining x
  unfold Line.put
  dsimp only
  split_ifs
  · exact ((hfirst.fixupWideCharAt cols (x + 1)).set _ _).clearCombining _
  · exact hfirst

theorem MarksWithin.foldl_set (h : l.MarksWithin) (blank : Cell) (xs : List Nat) :
    (xs.foldl (fun l i => l.set i blank) l).MarksWithin := by
  induction xs generalizing l with
  | nil => exact h
  | cons x xs ih => exact ih (h.set x blank)

theorem MarksWithin.erase (h : l.MarksWithin) (cols start stop : Nat) (blank : Cell) :
    (l.erase cols start stop blank).MarksWithin := by
  have hfixed : (if stop < cols then (l.fixupWideCharAt cols start).fixupWideCharAt cols stop
      else l.fixupWideCharAt cols start).MarksWithin := by
    split_ifs
    · exact (h.fixupWideCharAt _ _).fixupWideCharAt _ _
    · exact h.fixupWideCharAt _ _
  exact (hfixed.foldl_set blank _).of_subset le_rfl fun _ he => List.mem_of_mem_filter he

theorem mem_pushMark {e : Nat × List Char} {xs : List (Nat × List Char)} {m : Char}
    (h : e ∈ pushMark x m xs) : e.1 = x ∨ ∃ e' ∈ xs, e'.1 = e.1 := by
  induction xs with
  | nil =>
      obtain rfl := List.mem_singleton.mp h
      exact .inl rfl
  | cons head xs ih =>
      obtain ⟨k, marks⟩ := head
      unfold pushMark at h
      split_ifs at h with hk
      · rcases List.mem_cons.mp h with rfl | hmem
        · exact .inl hk
        · exact .inr ⟨e, List.mem_cons_of_mem _ hmem, rfl⟩
      · rcases List.mem_cons.mp h with rfl | hmem
        · exact .inr ⟨_, List.mem_cons_self, rfl⟩
        · exact (ih hmem).imp_right fun ⟨e', he', heq⟩ => ⟨e', List.mem_cons_of_mem _ he', heq⟩

theorem MarksWithin.pushCombining (h : l.MarksWithin) (hx : x < l.len) (m : Char) :
    (l.pushCombining x m).MarksWithin := by
  intro e he
  rcases mem_pushMark he with heq | ⟨e', he', heq⟩
  · exact lt_of_eq_of_lt heq hx
  · exact lt_of_eq_of_lt heq.symm (h e' he')

theorem MarksWithin.blankContinuation (h : l.MarksWithin) (x : Nat) (blank : Cell) :
    (Display.blankContinuation x blank l).MarksWithin := by
  unfold Display.blankContinuation
  dsimp only
  split_ifs
  · exact (h.set _ _).set _ _
  · exact h.set _ _

theorem MarksWithin.deleteCell (h : l.MarksWithin) (hx : x < l.len) :
    ((l.remove x).push blank).MarksWithin := by
  intro e he
  rw [len_push, len_remove _ hx]
  obtain ⟨e', hmem, rfl⟩ := List.mem_map.mp he
  have := h e' (List.mem_of_mem_filter hmem)
  split_ifs <;> omega

theorem MarksWithin.insertCell (h : l.MarksWithin) (hx : x < l.len) :
    (l.pop.insert x blank).MarksWithin := by
  intro e he
  rw [len_insertCell rfl hx]
  obtain ⟨e', hmem, rfl⟩ := List.mem_map.mp he
  have hpop : e'.1 + 1 < l.len := by
    have hcells : l.cells.isEmpty = false := by
      rw [List.isEmpty_eq_false_iff, ← List.length_pos_iff]
      exact Nat.zero_lt_of_lt hx
    unfold pop at hmem
    rw [hcells] at hmem
    obtain ⟨hmem, hne⟩ := List.mem_filter.mp hmem
    have hlt : e'.1 < l.cells.length := h e' hmem
    have hlast : e'.1 ≠ l.cells.length - 1 := by simpa using hne
    change e'.1 + 1 < l.cells.length
    omega
  split_ifs <;> omega

theorem marksWithin_iterate {f : Line → Line} (hlen : l.len = cols)
    (hf : ∀ l : Line, l.len = cols → l.MarksWithin → (f l).len = cols ∧ (f l).MarksWithin)
    (h : l.MarksWithin) (n : Nat) : (f^[n] l).MarksWithin := by
  induction n generalizing l with
  | zero => exact h
  | succ n ih =>
      obtain ⟨hlen', h'⟩ := hf l hlen h
      exact ih hlen' h'

theorem MarksWithin.deleteCells (h : l.MarksWithin) (hlen : l.len = cols) (hx : x < cols) (n : Nat)
    (blank : Cell) : (Display.deleteCells cols x n blank l).MarksWithin := by
  have hshift := marksWithin_iterate (f := fun l => (l.remove x).push blank) (by simpa using hlen)
    (fun l hl hw => ⟨by rw [len_push, len_remove _ (by omega)]; omega, hw.deleteCell (by omega)⟩)
    (h.fixupWideCharAt cols x) (min n (cols - x))
  unfold Display.deleteCells Display.fixDeleted
  split_ifs
  · exact hshift.blankContinuation _ _
  · exact hshift

theorem MarksWithin.insertCells (h : l.MarksWithin) (hlen : l.len = cols) (hx : x < cols) (n : Nat)
    (blank : Cell) : (Display.insertCells cols x n blank l).MarksWithin := by
  have hshift := marksWithin_iterate (f := fun l => l.pop.insert x blank) (by simpa using hlen)
    (fun l hl hw => ⟨len_insertCell hl hx, hw.insertCell (by omega)⟩)
    (h.fixupWideCharAt cols x) (min n (cols - x))
  unfold Display.insertCells Display.fixInserted
  split_ifs
  · exact hshift.set _ _
  · exact hshift.blankContinuation _ _
  · exact hshift

theorem MarksWithin.fitLine (h : l.MarksWithin) (cols : Nat) : (Sheet.fitLine cols l).MarksWithin := by
  have hfixed : (l.fixWideCharOrphanAtBoundary cols).MarksWithin := by
    unfold fixWideCharOrphanAtBoundary
    dsimp only
    split_ifs
    · exact h
    · exact h.set _ _
    · exact (h.set _ _).set _ _
    · exact h
  intro e he
  rw [Sheet.fitLine, len_resize]
  unfold Sheet.fitLine resize at he
  dsimp only at he
  split_ifs at he with hless
  · exact of_decide_eq_true (List.mem_filter.mp he).2
  · exact (hfixed e he).trans_le (Nat.not_lt.mp hless)

end Line

/-! ### Runs -/

theorem lineRule_marks {R : Rules} {d : Display} : LineRule R Line.MarksWithin d where
  blank _ _ := Line.marksWithin_of_nil rfl
  new := Line.marksWithin_of_nil rfl
  edit f hf line hlen h := by
    cases hf with
    | put x cell => exact h.put _ x cell
    | erase start stop blank => exact h.erase _ start stop blank
    | eraseAll => exact Line.marksWithin_of_nil rfl
    | mark x c hx => exact h.pushCombining (by omega) c
    | delete x n blank hx => exact h.deleteCells hlen hx n blank
    | insert x n blank hx => exact h.insertCells hlen hx n blank
  pad line x blank _ _ _ _ h := h.set x blank
  fit line h := h.fitLine _

namespace Terminal

variable {charWidth : Char → Nat} {t t' : Terminal} {d : Display}

structure Marked (t : Terminal) (d : Display) : Prop where
  ok : d.Ok
  shows : t.Shows d
  marks : d.AllLines Line.MarksWithin

theorem marked_new (cols rows : UInt16) (limit : Nat) (logicalShadow : Bool) :
    Marked { grid := .new cols rows limit logicalShadow }
      { sheet := .new cols rows limit logicalShadow } := by
  refine ⟨ok_new cols rows limit logicalShadow, shows_new .., ?_, by simp [Sheet.new], by simp⟩
  intro line hline
  rw [List.eq_of_mem_replicate hline]
  exact Line.marksWithin_of_nil rfl

theorem Marked.step? (h : t.Marked d) {e : Event} (hstep : t.step? charWidth e = some t') :
    ∃ d', t'.Marked d' := by
  obtain ⟨d', hstep', hs', hd'⟩ := h.shows.of_step? h.ok hstep
  refine ⟨d', hd', hs', ?_⟩
  cases hstep' with
  | callback c =>
      exact h.marks.changes (Display.changes_callback charWidth h.ok (admits_anything charWidth d c))
        fun _ => lineRule_marks
  | resize cols rows keepWrap =>
      exact h.marks.resize cols rows keepWrap (Line.marksWithin_of_nil rfl) fun line hline =>
        hline.fitLine _

theorem Marked.run? (h : t.Marked d) {events : List Event}
    (hrun : t.run? charWidth events = some t') : ∃ d', t'.Marked d' := by
  induction events generalizing t d with
  | nil =>
      cases hrun
      exact ⟨d, h⟩
  | cons e events ih =>
      obtain ⟨t₁, hstep, hrun⟩ := Option.bind_eq_some_iff.mp hrun
      obtain ⟨d₁, h₁⟩ := h.step? hstep
      exact ih h₁ hrun

end Terminal

end QuorumDispatch.Screen
