import QuorumDispatch.Screen.Effects
import Mathlib.Logic.Function.Basic

/-!
The widths of the cells of a line. A wide character takes two cells, one of width 2
and behind it one of width 0, and the operations on lines mend the pairs they break.
What each of them does to the widths is computed first; that it keeps them paired is
then a statement about sequences of numbers.
-/

namespace QuorumDispatch.Screen

open Lib

/-! ### Widths -/

/-- Widths in which a 2 and a 0 only occur together, in this order. -/
structure Paired (w : Nat → Nat) : Prop where
  first : w 0 ≠ 0
  pair : ∀ x, w x = 2 ↔ w (x + 1) = 0

structure Single (w : Nat → Nat) (x : Nat) : Prop where
  ne_zero : w x ≠ 0
  ne_two : w x ≠ 2

/-- Both halves of the pair at `x`, if there is one, become blanks. -/
def mendAt (w : Nat → Nat) (x : Nat) : Nat → Nat := fun y =>
  if w x = 2 then if y = x ∨ y = x + 1 then 1 else w y
  else if w x = 0 then if y = x ∨ y + 1 = x then 1 else w y
  else w y

namespace Paired

variable {w : Nat → Nat} {x a b : Nat}

theorem mendAt (h : Paired w) (x : Nat) : Paired (mendAt w x) := by
  have hfirst := h.first
  refine ⟨?_, fun y => ?_⟩
  · unfold Screen.mendAt
    split_ifs <;> omega
  · have hy := h.pair y
    have hx := h.pair x
    have hpred : ∀ z, z + 1 = x → (w z = 2 ↔ w x = 0) := fun z hz => hz ▸ h.pair z
    have hprev : ∀ z, z + 1 = y → (w z = 2 ↔ w y = 0) := fun z hz => hz ▸ h.pair z
    have hnext := h.pair (y + 1)
    unfold Screen.mendAt
    grind

theorem single_mendAt (h : Paired w) (x : Nat) : Single (Screen.mendAt w x) x := by
  have hfirst := h.first
  constructor <;> (unfold Screen.mendAt; split_ifs <;> simp_all)

/-- What becomes a blank stays one. -/
theorem ne_zero_mendAt {y : Nat} (hy : w y ≠ 0) : Screen.mendAt w x y ≠ 0 := by
  unfold Screen.mendAt
  split_ifs <;> simp_all

/-- A stretch without half a pair at either end becomes blank. -/
theorem blank (h : Paired w) (ha : w a ≠ 0) (hb : w b ≠ 0) :
    Paired fun y => if a ≤ y ∧ y < b then 1 else w y := by
  have hfirst := h.first
  refine ⟨?_, fun y => ?_⟩
  · split_ifs <;> simp_all
  · have hy := h.pair y
    have hane : y + 1 = a → w y ≠ 2 := fun hy' htwo => ha (hy' ▸ (h.pair y).mp htwo)
    have hbne : y + 1 = b → w y ≠ 2 := fun hy' htwo => hb (hy' ▸ (h.pair y).mp htwo)
    grind

/-- A single width may become another. -/
theorem update (h : Paired w) (hx : Single w x) {k : Nat} (hzero : k ≠ 0) (htwo : k ≠ 2) :
    Paired (Function.update w x k) := by
  have hfirst := h.first
  have hxy := h.pair x
  obtain ⟨hne0, hne2⟩ := hx
  refine ⟨?_, fun y => ?_⟩
  · grind [Function.update_apply]
  · have hy := h.pair y
    grind [Function.update_apply]

/-- Two single widths in a row may become a pair. -/
theorem update_pair (h : Paired w) (hx : Single w x) (hx' : Single w (x + 1)) :
    Paired (Function.update (Function.update w x 2) (x + 1) 0) := by
  have hfirst := h.first
  have hxy := h.pair x
  have hxy' := h.pair (x + 1)
  obtain ⟨hne0, hne2⟩ := hx
  obtain ⟨hne0', hne2'⟩ := hx'
  refine ⟨?_, fun y => ?_⟩
  · grind [Function.update_apply]
  · have hy := h.pair y
    grind [Function.update_apply]

/-- The widths from `b` on are cut off. -/
theorem cut (h : Paired w) (hb : ∀ x, x + 1 = b → w x ≠ 2) :
    Paired fun y => if y < b then w y else 1 := by
  have hfirst := h.first
  refine ⟨?_, fun y => ?_⟩
  · split_ifs <;> simp_all
  · have hy := h.pair y
    have := hb y
    grind

theorem ones : Paired fun _ => 1 := ⟨by simp, by simp⟩

end Paired

/-! ### Lines -/

namespace Line

def widths (l : Line) : Nat → Nat := l.widthAt

def WidePaired (l : Line) : Prop := Paired l.widths

variable {l : Line} {cols x n : Nat} {cell blank : Cell}

theorem widths_of_le (h : l.len ≤ x) : l.widths x = 1 := by
  simp only [widths, widthAt, List.getD_eq_getElem?_getD, List.getElem?_eq_none h]
  rfl

theorem WidePaired.last_ne_two (h : l.WidePaired) (hx : l.len ≤ x + 1) : l.widths x ≠ 2 := by
  intro htwo
  have hnext := (h.pair x).mp htwo
  rw [widths_of_le hx] at hnext
  cases hnext

theorem widths_set (hx : x < l.len) (cell : Cell) :
    (l.set x cell).widths = Function.update l.widths x cell.width := by
  have hlt : x < l.cells.length := hx
  funext y
  by_cases hy : y = x
  · subst hy
    simp [widths, widthAt, set, hlt]
  · rw [Function.update_of_ne hy]
    simp [widths, widthAt, set, List.getElem?_set_ne (Ne.symm hy)]

@[simp] theorem widths_clearCombining (l : Line) (x : Nat) :
    (l.clearCombining x).widths = l.widths := rfl

@[simp] theorem widths_clearCombiningRange (l : Line) (x y : Nat) :
    (l.clearCombiningRange x y).widths = l.widths := rfl

/-- The fixup mends, where the cell is no half of a pair that is cut by an end. -/
theorem widths_fixup (hlen : l.len = cols) (hx : x < cols) (htwo : l.widths x = 2 → x + 1 < cols)
    (hzero : l.widths x = 0 → 0 < x) :
    (l.fixupWideCharAt cols x).widths = mendAt l.widths x := by
  have hlt : x < l.len := hlen ▸ hx
  unfold fixupWideCharAt mendAt
  by_cases h2 : l.widths x = 2
  · have hnext := htwo h2
    rw [if_pos (show l.widthAt x = 2 from h2), if_pos hnext, widths_set (by simpa using hlt),
      widths_set (by omega)]
    funext y
    rw [if_pos h2]
    grind [Function.update_apply]
  · rw [if_neg (show l.widthAt x ≠ 2 from h2)]
    by_cases h0 : l.widths x = 0
    · have hpos := hzero h0
      rw [if_pos ⟨show l.widthAt x = 0 from h0, hpos⟩, widths_set (by simpa using hlt),
        widths_set (by omega)]
      funext y
      rw [if_neg h2, if_pos h0]
      grind [Function.update_apply]
    · rw [if_neg (fun hboth => h0 hboth.1)]
      funext y
      rw [if_neg h2, if_neg h0]

theorem widths_fixupWideCharAt (h : l.WidePaired) (hlen : l.len = cols) (hx : x < cols) :
    (l.fixupWideCharAt cols x).widths = mendAt l.widths x := by
  refine widths_fixup hlen hx (fun htwo => ?_) fun hzero => ?_
  · by_contra hge
    exact h.last_ne_two (by omega) htwo
  · by_contra hx0
    obtain rfl : x = 0 := by omega
    exact h.first hzero

theorem WidePaired.fixupWideCharAt (h : l.WidePaired) (hlen : l.len = cols) (hx : x < cols) :
    (l.fixupWideCharAt cols x).WidePaired := by
  rw [WidePaired, widths_fixupWideCharAt h hlen hx]
  exact h.mendAt x

theorem single_fixupWideCharAt (h : l.WidePaired) (hlen : l.len = cols) (hx : x < cols) :
    Single (l.fixupWideCharAt cols x).widths x := by
  rw [widths_fixupWideCharAt h hlen hx]
  exact h.single_mendAt x

theorem WidePaired.set (h : l.WidePaired) (hx : x < l.len) (hsingle : Single l.widths x)
    (hwidth : cell.width = 1) : (l.set x cell).WidePaired := by
  rw [WidePaired, widths_set hx, hwidth]
  exact h.update hsingle (by simp) (by simp)

/-- Behind a single width a pair may be broken up without touching it. -/
theorem mendAt_update {w : Nat → Nat} (hnext : w (x + 1) ≠ 0) (k : Nat) :
    mendAt (Function.update w x k) (x + 1) = Function.update (mendAt w (x + 1)) x k := by
  funext y
  unfold mendAt
  grind [Function.update_apply]

theorem WidePaired.put (h : l.WidePaired) (hlen : l.len = cols) (hx : x < cols)
    (hwidth : cell.width = 1 ∨ cell.width = 2 ∧ x + 1 < cols) : (l.put cols x cell).WidePaired := by
  have hmend := h.fixupWideCharAt hlen hx
  have hsingle := single_fixupWideCharAt h hlen hx
  have hlen' : (l.fixupWideCharAt cols x).len = cols := by simpa using hlen
  unfold Line.put
  generalize l.fixupWideCharAt cols x = l at *
  obtain hone | ⟨htwo, hnext⟩ := hwidth
  · rw [if_neg (by simp [hone]), WidePaired, widths_clearCombining]
    exact hmend.set (hlen' ▸ hx) hsingle hone
  · have hne : l.widths (x + 1) ≠ 0 := fun hzero => hsingle.ne_two ((hmend.pair x).mpr hzero)
    have hput : ((l.set x cell).clearCombining x).widths = Function.update l.widths x 2 := by
      rw [widths_clearCombining, widths_set (hlen' ▸ hx), htwo]
    have hfix : (((l.set x cell).clearCombining x).fixupWideCharAt cols (x + 1)).widths =
        Function.update (mendAt l.widths (x + 1)) x 2 := by
      rw [widths_fixup (by simpa using hlen') hnext ?_ (fun _ => Nat.succ_pos x), hput,
        mendAt_update hne]
      rw [hput, Function.update_of_ne (by omega)]
      intro hwide
      by_contra hge
      exact hmend.last_ne_two (by omega) hwide
    rw [if_pos ⟨htwo, hnext⟩, WidePaired, widths_clearCombining,
      widths_set (by simpa [hlen'] using hnext), hfix]
    refine (hmend.mendAt (x + 1)).update_pair ⟨?_, ?_⟩ (hmend.single_mendAt (x + 1))
    · exact Paired.ne_zero_mendAt hsingle.ne_zero
    · have := hsingle.ne_two
      unfold mendAt
      grind

theorem widths_foldl_set {xs : List Nat} (hxs : ∀ x ∈ xs, x < l.len) (hblank : blank.width = 1) :
    (xs.foldl (fun l i => l.set i blank) l).widths =
      fun y => if y ∈ xs then 1 else l.widths y := by
  induction xs generalizing l with
  | nil => simp
  | cons x xs ih =>
      have hx := hxs x List.mem_cons_self
      rw [List.foldl_cons, ih fun y hy => by simpa using hxs y (List.mem_cons_of_mem _ hy),
        widths_set hx, hblank]
      funext y
      grind [Function.update_apply]

theorem WidePaired.erase (h : l.WidePaired) (hlen : l.len = cols) {start stop : Nat}
    (hlt : start < stop) (hle : stop ≤ cols) (hblank : blank.width = 1) :
    (l.erase cols start stop blank).WidePaired := by
  have hmend := h.fixupWideCharAt hlen (hlt.trans_le hle)
  have hstart := (single_fixupWideCharAt h hlen (hlt.trans_le hle)).ne_zero
  have hlen' : (l.fixupWideCharAt cols start).len = cols := by simpa using hlen
  unfold Line.erase
  generalize l.fixupWideCharAt cols start = l at *
  -- the second fixup leaves no half a pair at the end of the stretch
  obtain ⟨l', hl', hpaired, hlen'', hstart', hstop⟩ : ∃ l',
      (if stop < cols then l.fixupWideCharAt cols stop else l) = l' ∧ l'.WidePaired ∧
        l'.len = cols ∧ l'.widths start ≠ 0 ∧ l'.widths stop ≠ 0 := by
    refine ⟨_, rfl, ?_⟩
    split_ifs with hstop
    · refine ⟨hmend.fixupWideCharAt hlen' hstop, by simpa using hlen', ?_,
        (single_fixupWideCharAt hmend hlen' hstop).ne_zero⟩
      rw [widths_fixupWideCharAt hmend hlen' hstop]
      exact Paired.ne_zero_mendAt hstart
    · refine ⟨hmend, hlen', hstart, ?_⟩
      rw [widths_of_le (by omega)]
      simp
  dsimp only
  rw [hl', WidePaired, widths_clearCombiningRange, widths_foldl_set ?_ hblank]
  · have := hpaired.blank hstart' hstop
    convert this using 4 with y
    rw [List.mem_range'_1]
    omega
  · intro x hx
    rw [List.mem_range'_1] at hx
    omega

theorem widePaired_of_widths {w : Nat → Nat} (h : l.widths = w) (hw : Paired w) :
    l.WidePaired := by
  rw [WidePaired, h]
  exact hw

theorem widePaired_of_blank (h : ∀ cell ∈ l.cells, cell.width = 1) : l.WidePaired := by
  refine widePaired_of_widths (w := fun _ => 1) ?_ .ones
  funext x
  simp only [widths, widthAt, List.getD_eq_getElem?_getD]
  cases hcell : l.cells[x]? with
  | none => rfl
  | some cell => exact h cell (List.mem_of_getElem? hcell)

/-! Deleting and inserting cells. The widths ahead of `x` stay, and those behind it move. -/

theorem widths_deleteCell (hlen : l.len = cols) (hx : x < cols) (hblank : blank.width = 1) :
    ((l.remove x).push blank).widths = fun y => if y < x then l.widths y else l.widths (y + 1) := by
  have hlen' : l.cells.length = cols := hlen
  have hrem : (l.cells.eraseIdx x).length = cols - 1 := by
    rw [List.length_eraseIdx_of_lt (by omega)]
    omega
  funext y
  simp only [widths, widthAt, remove, push, List.getD_eq_getElem?_getD]
  by_cases hy : y < cols - 1
  · rw [List.getElem?_append_left (by omega), List.getElem?_eraseIdx]
    split_ifs <;> rfl
  · rw [List.getElem?_append_right (by omega), hrem, if_neg (by omega),
      List.getElem?_eq_none (by omega : l.cells.length ≤ y + 1)]
    obtain hy' | hy' : y - (cols - 1) = 0 ∨ 0 < y - (cols - 1) := by omega
    · rw [hy']
      exact hblank
    · rw [List.getElem?_eq_none (show [blank].length ≤ _ from hy')]

/-- What holds while cells are deleted at `x`: there may be a second half at `x` whose
first half is gone, and else the pairs are whole. -/
structure Deleting (w : Nat → Nat) (x : Nat) : Prop where
  ahead : ∀ y, y + 1 < x → (w y = 2 ↔ w (y + 1) = 0)
  edge : ∀ y, y + 1 = x → w y ≠ 2
  behind : ∀ y, x ≤ y → (w y = 2 ↔ w (y + 1) = 0)
  first : 0 < x → w 0 ≠ 0

theorem Deleting.step {w : Nat → Nat} (h : Deleting w x) :
    Deleting (fun y => if y < x then w y else w (y + 1)) x where
  ahead y hy := by
    rw [if_pos (by omega), if_pos hy]
    exact h.ahead y hy
  edge y hy := by
    rw [if_pos (by omega)]
    exact h.edge y hy
  behind y hy := by
    rw [if_neg (by omega), if_neg (by omega)]
    exact h.behind (y + 1) (by omega)
  first hx := by
    rw [if_pos hx]
    exact h.first hx

theorem Deleting.iterate (hlen : l.len = cols) (hx : x < cols) (hblank : blank.width = 1)
    (h : Deleting l.widths x) (n : Nat) :
    Deleting ((fun l => (l.remove x).push blank)^[n] l).widths x := by
  induction n generalizing l with
  | zero => exact h
  | succ n ih =>
      rw [Function.iterate_succ_apply]
      refine ih ?_ ?_
      · rw [len_push, len_remove _ (hlen ▸ hx)]
        omega
      · rw [widths_deleteCell hlen hx hblank]
        exact h.step

/-- The second half at `x` is all there is to mend. -/
theorem Deleting.paired {w : Nat → Nat} (h : Deleting w x) (hx : w x ≠ 0) : Paired w where
  first := by
    obtain rfl | hpos : x = 0 ∨ 0 < x := by omega
    · exact hx
    · exact h.first hpos
  pair y := by
    obtain hy | hy | hy : y + 1 < x ∨ y + 1 = x ∨ x ≤ y := by omega
    · exact h.ahead y hy
    · exact iff_of_false (h.edge y hy) (hy ▸ hx)
    · exact h.behind y hy

theorem Deleting.update {w : Nat → Nat} (h : Deleting w x) (hx : w x = 0) :
    Deleting (Function.update w x 1) x where
  ahead y hy := by
    rw [Function.update_of_ne (by omega), Function.update_of_ne (by omega)]
    exact h.ahead y hy
  edge y hy := by
    rw [Function.update_of_ne (by omega)]
    exact h.edge y hy
  behind y hy := by
    have hnext := h.behind x le_rfl
    have := h.behind y hy
    grind [Function.update_apply]
  first hpos := by
    rw [Function.update_of_ne (by omega)]
    exact h.first hpos

theorem WidePaired.deleteCells (h : l.WidePaired) (hlen : l.len = cols) (hx : x < cols)
    (hblank : blank.width = 1) : (Display.deleteCells cols x n blank l).WidePaired := by
  have hmend := h.fixupWideCharAt hlen hx
  have hsingle := single_fixupWideCharAt h hlen hx
  have hlen' : (l.fixupWideCharAt cols x).len = cols := by simpa using hlen
  unfold Display.deleteCells
  generalize l.fixupWideCharAt cols x = l at *
  have hstart : Deleting l.widths x :=
    ⟨fun y _ => hmend.pair y, fun y hy htwo => hsingle.ne_zero (hy ▸ (hmend.pair y).mp htwo),
      fun y _ => hmend.pair y, fun _ => hmend.first⟩
  have hdel := hstart.iterate hlen' hx hblank (min n (cols - x))
  have hlen'' : ((fun l => (l.remove x).push blank)^[min n (cols - x)] l).len = cols := by
    refine Display.len_iterate (fun l hl => ?_) _ hlen'
    rw [len_push, len_remove _ (by omega)]
    omega
  generalize (fun l => (l.remove x).push blank)^[min n (cols - x)] l = l at *
  unfold Display.fixDeleted
  split_ifs with hzero
  · have hset : (l.set x blank).widths = Function.update l.widths x 1 := by
      rw [widths_set (hlen'' ▸ hx), hblank]
    have hdone := hdel.update hzero
    unfold Display.blankContinuation
    dsimp only
    rw [if_neg]
    · rw [WidePaired, hset]
      exact hdone.paired (by simp)
    · rintro ⟨hpos, htwo⟩
      refine hdone.edge (x - 1) (by omega) ?_
      rw [← hset]
      exact htwo
  · exact hdel.paired hzero

theorem widths_insertCell (hlen : l.len = cols) (hx : x < cols) (hblank : blank.width = 1) :
    (l.pop.insert x blank).widths = fun y =>
      if y < x then l.widths y else if y = x then 1 else if y < cols then l.widths (y - 1) else 1 := by
  have hlen' : l.cells.length = cols := hlen
  have hpop : l.cells.dropLast.length = cols - 1 := by simp [hlen']
  have hins : (l.cells.dropLast.insertIdx x blank).length = cols := by
    rw [List.length_insertIdx_of_le_length (by omega)]
    omega
  funext y
  simp only [widths, widthAt, pop, insert, List.getD_eq_getElem?_getD]
  by_cases hy : y < cols
  · rw [List.getElem?_insertIdx]
    split_ifs with h₁ h₂ h₃
    · rw [List.getElem?_dropLast, if_pos (by omega)]
    · simpa using hblank
    · omega
    · rw [List.getElem?_dropLast, if_pos (by omega)]
  · rw [List.getElem?_eq_none (by omega), if_neg (by omega), if_neg (by omega), if_neg hy]
    rfl

/-- What holds while cells are inserted at `x`: there may be a first half in the last
column whose second half is gone, and else the pairs are whole. -/
structure Inserting (w : Nat → Nat) (x cols : Nat) : Prop where
  ahead : ∀ y, y + 1 < x → (w y = 2 ↔ w (y + 1) = 0)
  edge : ∀ y, y + 1 = x → w y ≠ 2
  here : w x ≠ 0
  behind : ∀ y, x ≤ y → y + 1 < cols → (w y = 2 ↔ w (y + 1) = 0)
  outside : ∀ y, cols ≤ y → w y = 1
  first : w 0 ≠ 0

theorem Inserting.step {w : Nat → Nat} (h : Inserting w x cols) (hx : x < cols) :
    Inserting (fun y => if y < x then w y else if y = x then 1 else
      if y < cols then w (y - 1) else 1) x cols where
  ahead y hy := by
    rw [if_pos (by omega), if_pos hy]
    exact h.ahead y hy
  edge y hy := by
    rw [if_pos (by omega)]
    exact h.edge y hy
  here := by simp
  behind y hy hlt := by
    have hhere := h.here
    obtain rfl | hy := hy.eq_or_lt
    · simpa [hlt, show ¬x + 1 < x by omega] using hhere
    · obtain ⟨y, rfl⟩ : ∃ k, y = k + 1 := ⟨y - 1, by omega⟩
      simpa [show ¬y + 1 < x by omega, show y + 1 ≠ x by omega, show ¬y + 2 < x by omega,
        show y + 2 ≠ x by omega, show y + 1 < cols by omega, hlt] using
        h.behind y (by omega) (by omega)
  outside y hy := by
    rw [if_neg (by omega), if_neg (by omega), if_neg (by omega)]
  first := by
    have := h.first
    split_ifs <;> first | exact this | omega

theorem Inserting.iterate (hlen : l.len = cols) (hx : x < cols) (hblank : blank.width = 1)
    (h : Inserting l.widths x cols) (n : Nat) :
    Inserting ((fun l => l.pop.insert x blank)^[n] l).widths x cols := by
  induction n generalizing l with
  | zero => exact h
  | succ n ih =>
      rw [Function.iterate_succ_apply]
      refine ih ?_ ?_
      · rw [len_insert _ _ (by rw [len_pop]; omega), len_pop]
        omega
      · rw [widths_insertCell hlen hx hblank]
        exact h.step hx

/-- The first half in the last column is all there is to mend. -/
theorem Inserting.paired {w : Nat → Nat} (h : Inserting w x cols)
    (hlast : w (cols - 1) ≠ 2) : Paired w where
  first := h.first
  pair y := by
    have hout := h.outside
    obtain hy | hy | ⟨hy, hlt⟩ | hy | hy : y + 1 < x ∨ y + 1 = x ∨ (x ≤ y ∧ y + 1 < cols) ∨
        y = cols - 1 ∨ cols ≤ y := by omega
    · exact h.ahead y hy
    · exact iff_of_false (h.edge y hy) (hy ▸ h.here)
    · exact h.behind y hy hlt
    · refine iff_of_false (hy ▸ hlast) ?_
      rw [hout (y + 1) (by omega)]
      simp
    · rw [hout y hy, hout (y + 1) (by omega)]
      simp

/-- A blank takes the place of half a pair at `x`, whose other half is gone. -/
theorem Inserting.update {w : Nat → Nat} (h : Inserting w x cols) (hx : x < cols)
    (hlast : w (cols - 1) = 2) : Inserting (Function.update w (cols - 1) 1) x cols where
  ahead y hy := by
    rw [Function.update_of_ne (by omega), Function.update_of_ne (by omega)]
    exact h.ahead y hy
  edge y hy := by
    rw [Function.update_of_ne (by omega)]
    exact h.edge y hy
  here := by
    have := h.here
    grind [Function.update_apply]
  behind y hy hlt := by
    have := h.behind y hy hlt
    grind [Function.update_apply]
  outside y hy := by
    rw [Function.update_of_ne (by omega)]
    exact h.outside y hy
  first := by
    have := h.first
    grind [Function.update_apply]

theorem WidePaired.insertCells (h : l.WidePaired) (hlen : l.len = cols) (hx : x < cols)
    (hblank : blank.width = 1) : (Display.insertCells cols x n blank l).WidePaired := by
  have hmend := h.fixupWideCharAt hlen hx
  have hsingle := single_fixupWideCharAt h hlen hx
  have hlen' : (l.fixupWideCharAt cols x).len = cols := by simpa using hlen
  unfold Display.insertCells
  generalize l.fixupWideCharAt cols x = l at *
  have hstart : Inserting l.widths x cols :=
    ⟨fun y _ => hmend.pair y, fun y hy htwo => hsingle.ne_zero (hy ▸ (hmend.pair y).mp htwo),
      hsingle.ne_zero, fun y _ _ => hmend.pair y, fun y hy => widths_of_le (hlen' ▸ hy), hmend.first⟩
  have hins := hstart.iterate hlen' hx hblank (min n (cols - x))
  have hlen'' : ((fun l => l.pop.insert x blank)^[min n (cols - x)] l).len = cols := by
    refine Display.len_iterate (fun l hl => ?_) _ hlen'
    rw [len_insert _ _ (by rw [len_pop]; omega), len_pop]
    omega
  generalize (fun l => l.pop.insert x blank)^[min n (cols - x)] l = l at *
  have hlast : cols - 1 < l.len := by omega
  unfold Display.fixInserted
  split_ifs with htwo hzero
  · rw [WidePaired, widths_set hlast, hblank]
    exact (hins.update hx htwo).paired (by simp)
  · -- a whole pair in the last two columns, which goes
    have hpaired : l.WidePaired := hins.paired htwo
    have hfix : Display.blankContinuation (cols - 1) blank l =
        (l.set (cols - 1) blank).set (cols - 1 - 1) blank := by
      have hpos : 0 < cols - 1 := by
        by_contra hge
        have h0 : cols - 1 = 0 := by omega
        rw [h0] at hzero
        exact hins.first hzero
      have hprev : l.widths (cols - 1 - 1) = 2 := by
        rw [hpaired.pair, show cols - 1 - 1 + 1 = cols - 1 by omega]
        exact hzero
      have hset : (l.set (cols - 1) blank).widthAt (cols - 1 - 1) = 2 := by
        rw [show (l.set (cols - 1) blank).widthAt = _ from widths_set hlast blank,
          Function.update_of_ne (by omega)]
        exact hprev
      unfold Display.blankContinuation
      dsimp only
      rw [if_pos ⟨hpos, hset⟩]
    have hmended : ((l.set (cols - 1) blank).set (cols - 1 - 1) blank).widths =
        mendAt l.widths (cols - 1) := by
      rw [widths_set (by rw [len_set]; omega), widths_set hlast, hblank]
      funext y
      have hfirst := hins.first
      unfold mendAt
      rw [if_neg (show l.widths (cols - 1) ≠ 2 from htwo),
        if_pos (show l.widths (cols - 1) = 0 from hzero)]
      grind [Function.update_apply]
    rw [hfix, WidePaired, hmended]
    exact hpaired.mendAt _
  · exact hins.paired htwo

/-! A line at a new width. -/

theorem widths_resize (l : Line) (n : Nat) :
    (l.resize n {}).widths = fun y => if y < n then l.widths y else 1 := by
  funext y
  simp only [widths, widthAt, resize, List.getD_eq_getElem?_getD, List.getElem?_append,
    List.getElem?_take, List.getElem?_replicate, List.length_take]
  grind

theorem WidePaired.fitLine (h : l.WidePaired) (n : Nat) (hn : 0 < n) :
    (Sheet.fitLine n l).WidePaired := by
  have hlen : l.len = l.cells.length := rfl
  unfold Sheet.fitLine Line.fixWideCharOrphanAtBoundary
  dsimp only
  split_ifs with hle hlt hzero
  · -- blanks are added behind the end
    rw [WidePaired, widths_resize]
    refine h.cut fun x hx => h.last_ne_two ?_
    omega
  · rw [WidePaired, widths_resize, widths_set (by omega)]
    have hcut : (fun y => if y < n then Function.update l.widths (n - 1) 1 y else 1) =
        fun y => if y < n - 1 then l.widths y else 1 := by
      funext y
      grind [Function.update_apply]
    rw [show ({} : Cell).width = 1 from rfl, hcut]
    refine h.cut fun x hx htwo => ?_
    have hnext := (h.pair x).mp htwo
    rw [hx] at hnext
    exact absurd (hnext.symm.trans (show l.widths (n - 1) = 2 from hlt)) (by simp)
  · rw [WidePaired, widths_resize, widths_set (by rw [len_set]; omega), widths_set (by omega)]
    have hprev : l.widths (n - 1 - 1) = 2 := by
      rw [h.pair, show n - 1 - 1 + 1 = n - 1 by omega]
      exact hzero.2
    have hcut : (fun y => if y < n then
        Function.update (Function.update l.widths (n - 1) 1) (n - 1 - 1) 1 y else 1) =
        fun y => if y < n - 1 - 1 then l.widths y else 1 := by
      funext y
      grind [Function.update_apply]
    rw [show ({} : Cell).width = 1 from rfl, hcut]
    refine h.cut fun x hx htwo => ?_
    have hnext := (h.pair x).mp htwo
    rw [hx] at hnext
    exact absurd (hnext.symm.trans hprev) (by simp)
  · rw [WidePaired, widths_resize]
    refine h.cut fun x hx => ?_
    rw [show x = n - 1 by omega]
    exact hlt

end Line

end QuorumDispatch.Screen
