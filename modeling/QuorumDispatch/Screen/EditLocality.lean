import QuorumDispatch.Screen.Marks
import QuorumDispatch.Screen.VerticalResize

/-!
What erasing, inserting and deleting characters does to the rest of the row. An edit moves columns,
drops some and adds blank ones. It is local if a wide character that moves as a whole stays as it is,
and one that does not is replaced by blanks.
-/

namespace QuorumDispatch.Screen

open Lib

set_option linter.dupNamespace false

/-! ### Edits of a row

A row is seen as a function from columns to cells, with blanks behind its end. -/

def Wide (f : Nat → Cell) (c : Nat) : Prop := (f c).width = 2 ∧ (f (c + 1)).width = 0

abbrev Moves := Nat → Option Nat

def Moves.Together (moved : Moves) (c : Nat) : Prop :=
  moved c ≠ none ∧ moved (c + 1) = (moved c).map (· + 1)

def Torn (moved : Moves) (f : Nat → Cell) (c : Nat) : Prop :=
  Wide f c ∧ ¬moved.Together c ∨ ∃ b, c = b + 1 ∧ Wide f b ∧ ¬moved.Together b

structure EditsLocally (cols : Nat) (moved : Moves) (blank : Cell) (f r : Nat → Cell) : Prop where
  fresh : ∀ d < cols, (∀ c < cols, moved c ≠ some d) → r d = blank
  torn : ∀ c < cols, ∀ d, moved c = some d → Torn moved f c → r d = {} ∨ r d = blank
  kept : ∀ c < cols, ∀ d, moved c = some d → ¬Torn moved f c → r d = f c

/-- The columns from `start` up to `stop` are erased. -/
def erasing (start stop : Nat) : Moves := fun c => if start ≤ c ∧ c < stop then none else some c

/-- `k` columns are deleted at `x`. -/
def deleting (x k : Nat) : Moves := fun c =>
  if c < x then some c else if c < x + k then none else some (c - k)

/-- `k` columns are inserted at `x`. -/
def inserting (cols x k : Nat) : Moves := fun c =>
  if c < x then some c else if c + k < cols then some (c + k) else none

theorem together_erasing {start stop c : Nat} :
    (erasing start stop).Together c ↔ ¬(start ≤ c ∧ c < stop) ∧ ¬(start ≤ c + 1 ∧ c + 1 < stop) := by
  unfold Moves.Together erasing
  split_ifs <;> simp <;> omega

theorem together_deleting {x k c : Nat} (hk : 0 < k) :
    (deleting x k).Together c ↔ c + 1 < x ∨ x + k ≤ c := by
  unfold Moves.Together deleting
  split_ifs <;> simp <;> omega

theorem together_inserting {cols x k c : Nat} (hk : 0 < k) :
    (inserting cols x k).Together c ↔ c + 1 < x ∨ x ≤ c ∧ c + 1 + k < cols := by
  unfold Moves.Together inserting
  split_ifs <;> simp <;> omega

/-! ### The cells of a line -/

namespace Line

variable {l : Line} {cols x n : Nat} {blank : Cell}

def cellAt (l : Line) (c : Nat) : Cell := l.cells.getD c {}

theorem cellAt_of_le {c : Nat} (h : l.len ≤ c) : l.cellAt c = {} := by
  rw [cellAt, List.getD_eq_getElem?_getD, List.getElem?_eq_none h]
  rfl

theorem cellAt_set (hx : x < l.len) (cell : Cell) :
    (l.set x cell).cellAt = Function.update l.cellAt x cell := by
  have hlt : x < l.cells.length := hx
  funext c
  by_cases hc : c = x
  · subst hc
    simp [cellAt, set, hlt]
  · rw [Function.update_of_ne hc]
    simp [cellAt, set, List.getElem?_set_ne (Ne.symm hc)]

def mendCells (f : Nat → Cell) (x : Nat) : Nat → Cell := fun c =>
  if (f x).width = 2 ∧ (c = x ∨ c = x + 1) ∨ (f x).width = 0 ∧ 0 < x ∧ (c = x ∨ c + 1 = x) then {}
  else f c

theorem cellAt_fixupWideCharAt (hlen : l.len = cols) (hx : x < cols) :
    (l.fixupWideCharAt cols x).cellAt = mendCells l.cellAt x := by
  have hlt : x < l.len := hlen ▸ hx
  have hend : l.cellAt cols = {} := cellAt_of_le hlen.le
  have hwidth : l.widthAt x = (l.cellAt x).width := rfl
  unfold fixupWideCharAt mendCells
  rw [hwidth]
  split_ifs with htwo hnext hzero
  · rw [cellAt_set (by simpa using hlt), cellAt_set (by omega)]
    funext c
    grind [Function.update_apply]
  · have hlast : x + 1 = cols := by omega
    rw [cellAt_set hlt]
    funext c
    grind [Function.update_apply]
  · rw [cellAt_set (by simpa using hlt), cellAt_set (by omega)]
    funext c
    grind [Function.update_apply]
  · funext c
    grind

theorem cellAt_foldl_set {xs : List Nat} (hxs : ∀ x ∈ xs, x < l.len) :
    (xs.foldl (fun l i => l.set i blank) l).cellAt = fun c => if c ∈ xs then blank else l.cellAt c := by
  induction xs generalizing l with
  | nil => simp
  | cons x xs ih =>
      obtain ⟨hx, hxs⟩ := List.forall_mem_cons.mp hxs
      rw [List.foldl_cons, ih fun y hy => by simpa using hxs y hy, cellAt_set hx]
      funext c
      grind [Function.update_apply]

def blankHalf (x : Nat) (blank : Cell) (f : Nat → Cell) : Nat → Cell := fun c =>
  if (f x).width = 0 ∧ (c = x ∨ c + 1 = x ∧ (f c).width = 2) then blank else f c

theorem cellAt_blankContinuation (hx : x < l.len) (hzero : (l.cellAt x).width = 0) :
    (Display.blankContinuation x blank l).cellAt = blankHalf x blank l.cellAt := by
  have hwidth : (l.set x blank).widthAt (x - 1) = ((l.set x blank).cellAt (x - 1)).width := rfl
  unfold Display.blankContinuation blankHalf
  simp only [hwidth, cellAt_set hx]
  split_ifs with hbase
  · rw [cellAt_set (by simp; omega), cellAt_set hx]
    funext c
    grind [Function.update_apply]
  · rw [cellAt_set hx]
    funext c
    grind [Function.update_apply]

theorem cellAt_fixDeleted (hx : x < l.len) :
    (Display.fixDeleted x blank l).cellAt = blankHalf x blank l.cellAt := by
  have hwidth : l.widthAt x = (l.cellAt x).width := rfl
  unfold Display.fixDeleted
  rw [hwidth]
  split_ifs with hzero
  · exact cellAt_blankContinuation hx hzero
  · funext c
    grind [blankHalf]

def blankMargin (last : Nat) (blank : Cell) (f : Nat → Cell) : Nat → Cell := fun c =>
  if (f last).width = 2 ∧ c = last then blank else blankHalf last blank f c

theorem cellAt_fixInserted (hx : x < l.len) :
    (Display.fixInserted x blank l).cellAt = blankMargin x blank l.cellAt := by
  have hwidth : l.widthAt x = (l.cellAt x).width := rfl
  unfold Display.fixInserted blankMargin
  rw [hwidth]
  split_ifs with htwo hzero
  · rw [cellAt_set hx]
    funext c
    grind [Function.update_apply, blankHalf]
  · rw [cellAt_blankContinuation hx hzero]
    funext c
    grind
  · funext c
    grind [blankHalf]

theorem cellAt_erase (hlen : l.len = cols) {start stop : Nat} (hlt : start < stop) (hle : stop ≤ cols) :
    (l.erase cols start stop blank).cellAt = fun c =>
      if start ≤ c ∧ c < stop then blank
      else if stop < cols then mendCells (mendCells l.cellAt start) stop c
      else mendCells l.cellAt start c := by
  have hfix := cellAt_fixupWideCharAt hlen (hlt.trans_le hle)
  have hlen' : (l.fixupWideCharAt cols start).len = cols := by simpa using hlen
  have hmended : (if stop < cols then (l.fixupWideCharAt cols start).fixupWideCharAt cols stop
      else l.fixupWideCharAt cols start).cellAt = fun c =>
        if stop < cols then mendCells (mendCells l.cellAt start) stop c
        else mendCells l.cellAt start c := by
    split_ifs with hstop
    · rw [cellAt_fixupWideCharAt hlen' hstop, hfix]
    · exact hfix
  unfold erase
  change cellAt (List.foldl _ _ _) = _
  rw [cellAt_foldl_set, hmended]
  · funext c
    simp only [List.mem_range'_1, show start + (stop - start) = stop by omega]
  · intro y hy
    rw [List.mem_range'_1] at hy
    split_ifs <;> simp <;> omega

theorem cellAt_deleteCell (hlen : l.len = cols) (hx : x < cols) :
    ((l.remove x).push blank).cellAt = fun c =>
      if c < x then l.cellAt c else if c + 1 < cols then l.cellAt (c + 1)
      else if c < cols then blank else {} := by
  have hlen' : l.cells.length = cols := hlen
  have hrem : (l.cells.eraseIdx x).length = cols - 1 := by
    rw [List.length_eraseIdx_of_lt (by omega)]
    omega
  funext c
  simp only [cellAt, remove, push, List.getD_eq_getElem?_getD]
  by_cases hc : c < cols - 1
  · rw [List.getElem?_append_left (by omega), List.getElem?_eraseIdx]
    split_ifs <;> first | rfl | omega
  · rw [List.getElem?_append_right (by omega), hrem, if_neg (by omega), if_neg (by omega)]
    split_ifs with hlast
    · rw [show c - (cols - 1) = 0 by omega]
      rfl
    · rw [List.getElem?_eq_none (by simp; omega)]
      rfl

theorem cellAt_deleteCells (hlen : l.len = cols) (hx : x < cols) {k : Nat} (hk : x + k ≤ cols) :
    ((fun l => (l.remove x).push blank)^[k] l).cellAt = fun c =>
      if c < x then l.cellAt c else if c + k < cols then l.cellAt (c + k)
      else if c < cols then blank else {} := by
  have hsame (n : Nat) : ((fun l => (l.remove x).push blank)^[n] l).len = cols := by
    refine Display.len_iterate (fun l hl => ?_) _ hlen
    rw [len_push, len_remove _ (by omega)]
    omega
  induction k with
  | zero =>
      rw [Function.iterate_zero_apply]
      funext c
      have hend := fun h : cols ≤ c => cellAt_of_le (l := l) (hlen.le.trans h)
      grind
  | succ k ih =>
      rw [Function.iterate_succ_apply', cellAt_deleteCell (hsame k) hx, ih (by omega)]
      funext c
      grind

theorem cellAt_insertCell (hlen : l.len = cols) (hx : x < cols) :
    (l.pop.insert x blank).cellAt = fun c =>
      if c < x then l.cellAt c else if c = x then blank
      else if c < cols then l.cellAt (c - 1) else {} := by
  have hlen' : l.cells.length = cols := hlen
  have hpop : l.cells.dropLast.length = cols - 1 := by simp [hlen']
  have hins : (l.cells.dropLast.insertIdx x blank).length = cols := by
    rw [List.length_insertIdx_of_le_length (by omega)]
    omega
  funext c
  simp only [cellAt, pop, insert, List.getD_eq_getElem?_getD]
  by_cases hc : c < cols
  · rw [List.getElem?_insertIdx]
    split_ifs with h₁ h₂ h₃
    · rw [List.getElem?_dropLast, if_pos (by omega)]
    · rfl
    · omega
    · rw [List.getElem?_dropLast, if_pos (by omega)]
  · rw [List.getElem?_eq_none (by omega), if_neg (by omega), if_neg (by omega), if_neg hc]
    rfl

theorem cellAt_insertCells (hlen : l.len = cols) (hx : x < cols) {k : Nat} (hk : x + k ≤ cols) :
    ((fun l => l.pop.insert x blank)^[k] l).cellAt = fun c =>
      if c < x then l.cellAt c else if c < x + k then blank
      else if c < cols then l.cellAt (c - k) else {} := by
  have hsame (n : Nat) : ((fun l => l.pop.insert x blank)^[n] l).len = cols := by
    refine Display.len_iterate (fun l hl => ?_) _ hlen
    rw [len_insert _ _ (by rw [len_pop]; omega), len_pop]
    omega
  induction k with
  | zero =>
      rw [Function.iterate_zero_apply]
      funext c
      have hend := fun h : cols ≤ c => cellAt_of_le (l := l) (hlen.le.trans h)
      grind
  | succ k ih =>
      rw [Function.iterate_succ_apply', cellAt_insertCell (hsame k) hx, ih (by omega)]
      funext c
      grind

end Line

/-! ### Erasing -/

section Erase

variable {cols start stop : Nat} {blank fill : Cell} {f : Nat → Cell}

/-- No wide character begins where the erased columns end. The rest is about lone halves of wide
characters: that the fixups find none at either end. -/
structure EraseSpares (cols : Nat) (f : Nat → Cell) (start stop : Nat) : Prop where
  ahead : 0 < start → (f start).width = 0 → (f (start - 1)).width = 2 ∨ f (start - 1) = {}
  next : stop < cols → (f stop).width ≠ 2
  half : stop < cols → (f stop).width = 0 → (f (stop - 1)).width = 2
  lone : stop < cols → start + 1 = stop → (f start).width = 2 → (f stop).width = 0 ∨ f stop = {}

theorem erasing_eq_some {c d : Nat} :
    erasing start stop c = some d ↔ (c < start ∨ stop ≤ c) ∧ c = d := by
  unfold erasing
  split_ifs <;> simp <;> omega

theorem torn_erasing (hlt : start < stop) {c : Nat} (hout : c < start ∨ stop ≤ c) :
    Torn (erasing start stop) f c ↔ c + 1 = start ∧ Wide f c ∨ c = stop ∧ Wide f (stop - 1) := by
  unfold Torn
  simp only [together_erasing]
  constructor
  · rintro (⟨hwide, hapart⟩ | ⟨b, rfl, hwide, hapart⟩)
    · exact .inl ⟨by omega, hwide⟩
    · obtain rfl : stop = b + 1 := by omega
      exact .inr ⟨rfl, hwide⟩
  · rintro (⟨hc, hwide⟩ | ⟨rfl, hwide⟩)
    · exact .inl ⟨hwide, by omega⟩
    · exact .inr ⟨c - 1, by omega, hwide, by omega⟩

def erasedCells (cols start stop : Nat) (blank : Cell) (f : Nat → Cell) : Nat → Cell := fun c =>
  if start ≤ c ∧ c < stop then blank
  else if stop < cols then Line.mendCells (Line.mendCells f start) stop c
  else Line.mendCells f start c

theorem erasedCells_ahead (hlt : start < stop) {c : Nat} (hc : c < start) :
    erasedCells cols start stop blank f c =
      if c + 1 = start ∧ (f start).width = 0 then {} else f c := by
  unfold erasedCells Line.mendCells
  grind

theorem erasedCells_stop (hlt : start < stop) (hstop : stop < cols) :
    erasedCells cols start stop blank f stop =
      if (f stop).width = 2 ∨ (f stop).width = 0 ∨ start + 1 = stop ∧ (f start).width = 2 then {}
      else f stop := by
  have hfirst : Line.mendCells f start stop =
      if start + 1 = stop ∧ (f start).width = 2 then {} else f stop := by
    unfold Line.mendCells
    grind
  unfold erasedCells
  rw [if_neg (by omega), if_pos hstop, Line.mendCells, hfirst]
  grind

theorem erasedCells_behind (hlt : start < stop) {c : Nat} (hc : stop < c)
    (hnext : stop < cols → (f stop).width ≠ 2) : erasedCells cols start stop blank f c = f c := by
  have hfirst : Line.mendCells f start c = f c := by
    unfold Line.mendCells
    grind
  have hsecond : stop < cols → (Line.mendCells f start stop).width ≠ 2 := by
    unfold Line.mendCells
    grind
  unfold erasedCells
  rw [if_neg (by omega), Line.mendCells, hfirst]
  grind

theorem eraseSpares_of_local (hlt : start < stop) (hle : stop ≤ cols)
    (h : EditsLocally cols (erasing start stop) fill f (erasedCells cols start stop blank f)) :
    EraseSpares cols f start stop := by
  have hkept {c : Nat} (hc : c < cols) (hout : c < start ∨ stop ≤ c) :=
    h.kept c hc c (erasing_eq_some.mpr ⟨hout, rfl⟩)
  constructor
  · intro hpos hzero
    have hlast := hkept (c := start - 1) (by omega) (.inl (by omega))
    rw [torn_erasing hlt (.inl (by omega)), erasedCells_ahead hlt (by omega)] at hlast
    unfold Wide at hlast
    grind
  · intro hstop htwo
    have hfirst := hkept hstop (.inr le_rfl)
    rw [torn_erasing hlt (.inr le_rfl), erasedCells_stop hlt hstop] at hfirst
    unfold Wide at hfirst
    grind
  · intro hstop hzero
    have hfirst := hkept hstop (.inr le_rfl)
    rw [torn_erasing hlt (.inr le_rfl), erasedCells_stop hlt hstop] at hfirst
    unfold Wide at hfirst
    grind
  · intro hstop hone htwo
    have hfirst := hkept hstop (.inr le_rfl)
    rw [torn_erasing hlt (.inr le_rfl), erasedCells_stop hlt hstop] at hfirst
    unfold Wide at hfirst
    grind

theorem EraseSpares.editsLocally (h : EraseSpares cols f start stop) (hlt : start < stop) (hle : stop ≤ cols) :
    EditsLocally cols (erasing start stop) blank f (erasedCells cols start stop blank f) := by
  obtain ⟨hahead, hnext, hhalf, hlone⟩ := h
  constructor
  · intro d hd hnone
    have hin : start ≤ d ∧ d < stop := by
      by_contra hout
      exact hnone d hd (erasing_eq_some.mpr ⟨by omega, rfl⟩)
    exact if_pos hin
  · intro c hc d hcd htorn
    obtain ⟨hout, rfl⟩ := erasing_eq_some.mp hcd
    rcases (torn_erasing hlt hout).mp htorn with ⟨rfl, hwide⟩ | ⟨rfl, hwide⟩
    · rw [erasedCells_ahead hlt (by omega)]
      exact .inl (if_pos ⟨rfl, hwide.2⟩)
    · rw [erasedCells_stop hlt hc]
      have hzero : (f c).width = 0 := by
        have := hwide.2
        rwa [Nat.sub_add_cancel (by omega)] at this
      exact .inl (if_pos (.inr (.inl hzero)))
  · intro c hc d hcd htorn
    obtain ⟨hout, rfl⟩ := erasing_eq_some.mp hcd
    rw [torn_erasing hlt hout] at htorn
    unfold Wide at htorn
    rcases lt_trichotomy c stop with hcs | rfl | hcs
    · rw [erasedCells_ahead hlt (by omega)]
      grind
    · rw [erasedCells_stop hlt hc]
      grind
    · exact erasedCells_behind hlt hcs hnext

end Erase

/-! ### Deleting -/

section Delete

variable {cols x k : Nat} {blank fill : Cell} {f : Nat → Cell}

/-- The cell behind the deleted ones ends up next to the one ahead of them: what is left is about lone
halves of wide characters there. -/
structure DeleteSpares (cols : Nat) (f : Nat → Cell) (x k : Nat) : Prop where
  ahead : 0 < x → (f x).width = 0 → (f (x - 1)).width = 2 ∨ f (x - 1) = {}
  lone : x + k < cols → k = 1 → (f x).width = 2 → (f (x + 1)).width = 0 ∨ f (x + 1) = {}
  half : x + k < cols → (f (x + k)).width = 0 → (f (x + k - 1)).width = 2
  joined : x + k < cols → (f (x + k)).width = 0 → ¬(k = 1 ∧ (f x).width = 2) → 0 < x →
    (f (x - 1)).width = 2 → (f x).width = 0

theorem deleting_eq_some {c d : Nat} :
    deleting x k c = some d ↔ c < x ∧ c = d ∨ x + k ≤ c ∧ c = d + k := by
  unfold deleting
  split_ifs <;> simp <;> omega

theorem torn_deleting (hk : 0 < k) {c : Nat} (hout : c < x ∨ x + k ≤ c) :
    Torn (deleting x k) f c ↔ c + 1 = x ∧ Wide f c ∨ c = x + k ∧ Wide f (x + k - 1) := by
  unfold Torn
  simp only [together_deleting hk]
  constructor
  · rintro (⟨hwide, hapart⟩ | ⟨b, rfl, hwide, hapart⟩)
    · exact .inl ⟨by omega, hwide⟩
    · obtain rfl : b = x + k - 1 := by omega
      exact .inr ⟨by omega, hwide⟩
  · rintro (⟨hc, hwide⟩ | ⟨rfl, hwide⟩)
    · exact .inl ⟨hwide, by omega⟩
    · exact .inr ⟨x + k - 1, by omega, hwide, by omega⟩

def movedUp (cols x k : Nat) (blank : Cell) (f : Nat → Cell) : Nat → Cell := fun c =>
  if c < x then Line.mendCells f x c else if c + k < cols then Line.mendCells f x (c + k)
  else if c < cols then blank else {}

def deletedCells (cols x k : Nat) (blank : Cell) (f : Nat → Cell) : Nat → Cell :=
  Line.blankHalf x blank (movedUp cols x k blank f)

theorem movedUp_ahead {c : Nat} (hc : c < x) :
    movedUp cols x k blank f c = if c + 1 = x ∧ (f x).width = 0 then {} else f c := by
  unfold movedUp Line.mendCells
  grind

theorem movedUp_cursor (hk : 0 < k) (hx : x + k < cols) :
    movedUp cols x k blank f x = if k = 1 ∧ (f x).width = 2 then {} else f (x + k) := by
  unfold movedUp Line.mendCells
  grind

theorem movedUp_behind (hk : 0 < k) {c : Nat} (hc : x < c) (hlt : c + k < cols) :
    movedUp cols x k blank f c = f (c + k) := by
  unfold movedUp Line.mendCells
  grind

theorem movedUp_fresh {c : Nat} (hxc : x ≤ c) (hc : c < cols) (hlt : cols ≤ c + k) :
    movedUp cols x k blank f c = blank := by
  unfold movedUp
  grind

theorem deletedCells_ahead {c : Nat} (hc : c < x) :
    deletedCells cols x k blank f c =
      if (movedUp cols x k blank f x).width = 0 ∧ c + 1 = x ∧ (f x).width ≠ 0 ∧ (f c).width = 2 then
        blank
      else if c + 1 = x ∧ (f x).width = 0 then {} else f c := by
  unfold deletedCells Line.blankHalf
  rw [movedUp_ahead hc]
  grind

theorem deletedCells_cursor (hk : 0 < k) (hx : x + k < cols) :
    deletedCells cols x k blank f x =
      if k = 1 ∧ (f x).width = 2 then {} else if (f (x + k)).width = 0 then blank else f (x + k) := by
  unfold deletedCells Line.blankHalf
  rw [movedUp_cursor hk hx]
  grind

theorem deletedCells_behind (hk : 0 < k) {c : Nat} (hc : x < c) (hlt : c + k < cols) :
    deletedCells cols x k blank f c = f (c + k) := by
  unfold deletedCells Line.blankHalf
  rw [movedUp_behind hk hc hlt]
  grind

theorem deletedCells_fresh {c : Nat} (hxc : x ≤ c) (hc : c < cols) (hlt : cols ≤ c + k) :
    deletedCells cols x k blank f c = blank := by
  unfold deletedCells Line.blankHalf
  rw [movedUp_fresh hxc hc hlt]
  grind

theorem movedUp_cursor_width (hx : x < cols) (hblank : blank.width = 1) (h : cols ≤ x + k) :
    (movedUp cols x k blank f x).width = 1 := by
  rw [movedUp_fresh le_rfl hx h, hblank]

theorem deleteSpares_of_local (hx : x < cols) (hk : 0 < k) (hle : x + k ≤ cols) (hblank : blank.width = 1)
    (h : EditsLocally cols (deleting x k) fill f (deletedCells cols x k blank f)) :
    DeleteSpares cols f x k := by
  -- at the end of the row there is a blank at the cursor
  have hend (h : cols ≤ x + k) : (movedUp cols x k blank f x).width = 1 :=
    movedUp_cursor_width hx hblank h
  have hcursor (h : x + k < cols) : movedUp cols x k blank f x =
      if k = 1 ∧ (f x).width = 2 then {} else f (x + k) := movedUp_cursor hk h
  have hahead {c : Nat} (hc : c < x) := h.kept c (by omega) c (deleting_eq_some.mpr (.inl ⟨hc, rfl⟩))
  have hbehind (hlt : x + k < cols) :=
    h.kept (x + k) hlt x (deleting_eq_some.mpr (.inr ⟨le_rfl, rfl⟩))
  constructor
  · intro hpos hzero
    have hlast := hahead (c := x - 1) (by omega)
    rw [torn_deleting hk (.inl (by omega)), deletedCells_ahead (by omega)] at hlast
    unfold Wide at hlast
    grind
  · intro hlt hone htwo
    have hfirst := hbehind hlt
    rw [torn_deleting hk (.inr le_rfl), deletedCells_cursor hk hlt] at hfirst
    unfold Wide at hfirst
    grind
  · intro hlt hzero
    have hfirst := hbehind hlt
    rw [torn_deleting hk (.inr le_rfl), deletedCells_cursor hk hlt] at hfirst
    unfold Wide at hfirst
    grind
  · intro hlt hzero hlone hpos htwo
    have hlast := hahead (c := x - 1) (by omega)
    rw [torn_deleting hk (.inl (by omega)), deletedCells_ahead (by omega)] at hlast
    unfold Wide at hlast
    grind

theorem DeleteSpares.editsLocally (h : DeleteSpares cols f x k) (hx : x < cols) (hk : 0 < k)
    (hle : x + k ≤ cols) (hblank : blank.width = 1) :
    EditsLocally cols (deleting x k) blank f (deletedCells cols x k blank f) := by
  -- at the end of the row there is a blank at the cursor
  have hend (h : cols ≤ x + k) : (movedUp cols x k blank f x).width = 1 :=
    movedUp_cursor_width hx hblank h
  have hcursor (h : x + k < cols) : movedUp cols x k blank f x =
      if k = 1 ∧ (f x).width = 2 then {} else f (x + k) := movedUp_cursor hk h
  obtain ⟨hahead, hlone, hhalf, hjoined⟩ := h
  constructor
  · intro d hd hnone
    have hfresh : x ≤ d ∧ cols ≤ d + k := by
      by_contra hin
      by_cases hlt : d < x
      · exact hnone d hd (deleting_eq_some.mpr (.inl ⟨hlt, rfl⟩))
      · exact hnone (d + k) (by omega) (deleting_eq_some.mpr (.inr ⟨by omega, rfl⟩))
    exact deletedCells_fresh hfresh.1 hd hfresh.2
  · intro c hc d hcd htorn
    rcases deleting_eq_some.mp hcd with ⟨hlt, rfl⟩ | ⟨hle, rfl⟩
    · rw [torn_deleting hk (.inl hlt)] at htorn
      rw [deletedCells_ahead hlt]
      unfold Wide at htorn
      grind
    · rw [torn_deleting hk (.inr hle)] at htorn
      obtain rfl : d = x := by omega
      rw [deletedCells_cursor hk hc]
      unfold Wide at htorn
      grind
  · intro c hc d hcd htorn
    rcases deleting_eq_some.mp hcd with ⟨hlt, rfl⟩ | ⟨hle, rfl⟩
    · rw [torn_deleting hk (.inl hlt)] at htorn
      rw [deletedCells_ahead hlt]
      unfold Wide at htorn
      grind
    · rw [torn_deleting hk (.inr hle)] at htorn
      rcases eq_or_lt_of_le (by omega : x ≤ d) with rfl | hlt
      · rw [deletedCells_cursor hk hc]
        unfold Wide at htorn
        grind
      · exact deletedCells_behind hk hlt hc

end Delete

/-! ### Inserting -/

section Insert

variable {cols x k : Nat} {blank fill : Cell} {f : Nat → Cell}

/-- No wide character begins at the cursor, but for one that is cut by the margin, and none ends at the
margin after the insert. The rest is about lone halves of wide characters there. -/
structure InsertSpares (cols : Nat) (f : Nat → Cell) (x k : Nat) : Prop where
  ahead : 0 < x → (f x).width = 0 → (f (x - 1)).width = 2 ∨ f (x - 1) = {} ∧ cols ≤ x + k
  cursor : x + k < cols → (f x).width = 2 → x + k + 1 = cols ∧ (f (x + 1)).width = 0
  cut : ∀ c, x ≤ c → c + k + 1 = cols → (f c).width = 2 → (f (c + 1)).width = 0
  margin : ∀ c, x ≤ c → c + k + 1 = cols → (f c).width = 0 → c = x ∧ 0 < x

theorem inserting_eq_some {c d : Nat} :
    inserting cols x k c = some d ↔ c < x ∧ c = d ∨ x ≤ c ∧ c + k < cols ∧ d = c + k := by
  unfold inserting
  split_ifs <;> simp <;> omega

theorem torn_inserting (hk : 0 < k) {c : Nat} (hin : c < x ∨ c + k < cols) :
    Torn (inserting cols x k) f c ↔
      c + 1 = x ∧ Wide f c ∨ c = x ∧ 0 < x ∧ Wide f (x - 1) ∨ x ≤ c ∧ c + 1 + k = cols ∧ Wide f c := by
  unfold Torn
  simp only [together_inserting hk]
  constructor
  · rintro (⟨hwide, hapart⟩ | ⟨b, rfl, hwide, hapart⟩)
    · rcases lt_or_ge c x with hlt | hge
      · exact .inl ⟨by omega, hwide⟩
      · exact .inr (.inr ⟨hge, by omega, hwide⟩)
    · obtain rfl : x = b + 1 := by omega
      exact .inr (.inl ⟨rfl, by omega, hwide⟩)
  · rintro (⟨hc, hwide⟩ | ⟨rfl, hpos, hwide⟩ | ⟨hge, hc, hwide⟩)
    · exact .inl ⟨hwide, by omega⟩
    · exact .inr ⟨c - 1, by omega, hwide, by omega⟩
    · exact .inl ⟨hwide, by omega⟩

def movedDown (cols x k : Nat) (blank : Cell) (f : Nat → Cell) : Nat → Cell := fun c =>
  if c < x then Line.mendCells f x c else if c < x + k then blank
  else if c < cols then Line.mendCells f x (c - k) else {}

def insertedCells (cols x k : Nat) (blank : Cell) (f : Nat → Cell) : Nat → Cell :=
  Line.blankMargin (cols - 1) blank (movedDown cols x k blank f)

theorem movedDown_margin (hx : x + k < cols) :
    movedDown cols x k blank f (cols - 1) = Line.mendCells f x (cols - k - 1) := by
  unfold movedDown
  rw [if_neg (by omega), if_neg (by omega), if_pos (by omega), show cols - 1 - k = cols - k - 1 by omega]

theorem insertedCells_ahead (hx : x < cols) (hk : 0 < k) (hblank : blank.width = 1) {c : Nat} (hc : c < x) :
    insertedCells cols x k blank f c = if c + 1 = x ∧ (f x).width = 0 then {} else f c := by
  have hlast : c + 1 = cols - 1 → movedDown cols x k blank f (cols - 1) = blank := by
    unfold movedDown
    grind
  have hmoved : movedDown cols x k blank f c = if c + 1 = x ∧ (f x).width = 0 then {} else f c := by
    unfold movedDown Line.mendCells
    grind
  unfold insertedCells Line.blankMargin Line.blankHalf
  grind

theorem insertedCells_fresh {c : Nat} (hxc : x ≤ c) (hc : c < x + k) :
    insertedCells cols x k blank f c = blank := by
  have hmoved : movedDown cols x k blank f c = blank := by
    unfold movedDown
    grind
  unfold insertedCells Line.blankMargin Line.blankHalf
  grind

theorem insertedCells_moved {c : Nat} (hxc : x ≤ c) (hc : c + k < cols) :
    insertedCells cols x k blank f (c + k) =
      if c + k + 1 = cols ∧ (Line.mendCells f x c).width = 2 then blank
      else if c + k + 1 = cols ∧ (Line.mendCells f x c).width = 0 then blank
      else if c + k + 2 = cols ∧ (Line.mendCells f x (c + 1)).width = 0 ∧
        (Line.mendCells f x c).width = 2 then blank
      else Line.mendCells f x c := by
  have hlast : movedDown cols x k blank f (cols - 1) = Line.mendCells f x (cols - k - 1) :=
    movedDown_margin (by omega)
  have hmoved : movedDown cols x k blank f (c + k) = Line.mendCells f x c := by
    unfold movedDown
    rw [if_neg (by omega), if_neg (by omega), if_pos hc, Nat.add_sub_cancel]
  unfold insertedCells Line.blankMargin Line.blankHalf
  rw [hmoved, hlast]
  rcases lt_trichotomy (c + k + 2) cols with h | h | h
  · grind
  · rw [show cols - k - 1 = c + 1 by omega]
    grind
  · rw [show cols - k - 1 = c by omega]
    grind

theorem insertSpares_of_local (hx : x < cols) (hk : 0 < k) (hle : x + k ≤ cols) (hblank : blank.width = 1)
    (h : EditsLocally cols (inserting cols x k) fill f (insertedCells cols x k blank f)) :
    InsertSpares cols f x k := by
  have hahead {c : Nat} (hc : c < x) := h.kept c (by omega) c (inserting_eq_some.mpr (.inl ⟨hc, rfl⟩))
  have hmoved {c : Nat} (hxc : x ≤ c) (hc : c + k < cols) :=
    h.kept c (by omega) (c + k) (inserting_eq_some.mpr (.inr ⟨hxc, hc, rfl⟩))
  constructor
  · intro hpos hzero
    have hlast := hahead (c := x - 1) (by omega)
    rw [torn_inserting hk (.inl (by omega)), insertedCells_ahead hx hk hblank (by omega)] at hlast
    unfold Wide at hlast
    by_cases hlt : x + k < cols
    · have hfirst := hmoved le_rfl hlt
      rw [torn_inserting hk (.inr hlt), insertedCells_moved le_rfl hlt] at hfirst
      unfold Wide Line.mendCells at hfirst
      grind
    · grind
  · intro hlt htwo
    have hfirst := hmoved le_rfl hlt
    rw [torn_inserting hk (.inr hlt), insertedCells_moved le_rfl hlt] at hfirst
    unfold Wide Line.mendCells at hfirst
    grind
  · intro c hxc hc htwo
    have hlast := hmoved hxc (by omega)
    rw [torn_inserting hk (.inr (by omega)), insertedCells_moved (by omega) (by omega)] at hlast
    unfold Wide Line.mendCells at hlast
    grind
  · intro c hxc hc hzero
    have hlast := hmoved hxc (by omega)
    rw [torn_inserting hk (.inr (by omega)), insertedCells_moved (by omega) (by omega)] at hlast
    unfold Wide Line.mendCells at hlast
    grind

theorem InsertSpares.editsLocally (h : InsertSpares cols f x k) (hx : x < cols) (hk : 0 < k)
    (hle : x + k ≤ cols) (hblank : blank.width = 1) :
    EditsLocally cols (inserting cols x k) blank f (insertedCells cols x k blank f) := by
  obtain ⟨hahead, hcursor, hcut, hmargin⟩ := h
  constructor
  · intro d hd hnone
    have hfresh : x ≤ d ∧ d < x + k := by
      by_contra hin
      by_cases hlt : d < x
      · exact hnone d hd (inserting_eq_some.mpr (.inl ⟨hlt, rfl⟩))
      · exact hnone (d - k) (by omega) (inserting_eq_some.mpr (.inr ⟨by omega, by omega, by omega⟩))
    exact insertedCells_fresh hfresh.1 hfresh.2
  · intro c hc d hcd htorn
    rcases inserting_eq_some.mp hcd with ⟨hlt, rfl⟩ | ⟨hxc, hck, rfl⟩
    · rw [torn_inserting hk (.inl hlt)] at htorn
      rw [insertedCells_ahead hx hk hblank hlt]
      unfold Wide at htorn
      grind
    · rw [torn_inserting hk (.inr hck)] at htorn
      rw [insertedCells_moved hxc hck]
      unfold Wide at htorn
      unfold Line.mendCells
      grind
  · intro c hc d hcd htorn
    rcases inserting_eq_some.mp hcd with ⟨hlt, rfl⟩ | ⟨hxc, hck, rfl⟩
    · rw [torn_inserting hk (.inl hlt)] at htorn
      rw [insertedCells_ahead hx hk hblank hlt]
      unfold Wide at htorn
      grind
    · rw [torn_inserting hk (.inr hck)] at htorn
      rw [insertedCells_moved hxc hck]
      unfold Wide at htorn
      unfold Line.mendCells
      grind

end Insert

end QuorumDispatch.Screen
