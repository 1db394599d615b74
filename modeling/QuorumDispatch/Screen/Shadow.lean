import QuorumDispatch.Screen.AltScreen

/-!
The shadow. The logical grid differs from the legacy one by a flag, which is read when a
deferred wrap lost its row to a resize. Without a resize no wrap does, and the two grids
show the same.
-/

namespace QuorumDispatch.Screen

open Lib

set_option linter.dupNamespace false

def Frame.shadow (f : Frame) : Frame := { f with logicalShadow := true }

def Sheet.shadow (v : Sheet) : Sheet := v.withFrame Frame.shadow

/-! ### Operations that do not read the flag -/

namespace Sheet

theorem shadow_eraseCells (v : Sheet) (y start stop : Nat) (blank : Cell) :
    v.shadow.eraseCells y start stop blank = (v.eraseCells y start stop blank).shadow := by
  rw [eraseCells, eraseCells, apply_ite shadow]
  rfl

theorem shadow_foldl {α : Type} {f : Sheet → α → Sheet}
    (hf : ∀ v a, f v.shadow a = (f v a).shadow) (v : Sheet) (xs : List α) :
    xs.foldl f v.shadow = (xs.foldl f v).shadow := by
  induction xs generalizing v with
  | nil => rfl
  | cons a xs ih =>
      rw [List.foldl_cons, List.foldl_cons, hf]
      exact ih (f v a)

theorem shadow_eraseRows (v : Sheet) (startY stopY : Nat) (blank : Cell) :
    v.shadow.eraseRows startY stopY blank = (v.eraseRows startY stopY blank).shadow :=
  shadow_foldl (fun _ _ => rfl) v _

theorem shadow_capture (v : Sheet) : v.shadow.capture = v.capture.shadow := by
  rw [capture, capture, apply_ite shadow]
  rfl

theorem shadow_scrollUp (v : Sheet) (inAltScreen : Bool) (fill : Cell) :
    v.shadow.scrollUp inAltScreen fill = (v.scrollUp inAltScreen fill).shadow := by
  rw [scrollUp, scrollUp, apply_ite shadow, shadow_capture]
  rfl

end Sheet

namespace Display

def shadow (d : Display) : Display := d.withSheet Sheet.shadow

/-- An operation that leaves the flag alone and does not depend on it. -/
def Passive (f : Display → Display) : Prop := Function.Semiconj shadow f f

theorem Passive.comp {f g : Display → Display} (hf : Passive f) (hg : Passive g) :
    Passive fun d => f (g d) := hf.comp_right hg

theorem Passive.ite {p : Display → Prop} [DecidablePred p] {f g : Display → Display}
    (hp : ∀ d, p d.shadow ↔ p d) (hf : Passive f) (hg : Passive g) :
    Passive fun d => if p d then f d else g d := by
  intro d
  dsimp only
  by_cases h : p d
  · rw [if_pos h, if_pos ((hp d).mpr h), hf d]
  · rw [if_neg h, if_neg fun h' => h ((hp d).mp h'), hg d]

theorem Passive.withFrame {f : Frame → Frame} (hf : ∀ g, f g.shadow = (f g).shadow) :
    Passive (·.withFrame f) := by
  intro d
  show ({ d with sheet := { d.sheet with toFrame := (f d.sheet.toFrame).shadow } } : Display) =
    { d with sheet := { d.sheet with toFrame := f d.sheet.toFrame.shadow } }
  rw [hf]

theorem shadow_intern (d : Display) (style : Style) :
    d.shadow.intern style = ((d.intern style).1, (d.intern style).2.shadow) := rfl

theorem shadow_internWithGc (d : Display) (style : Style) :
    d.shadow.internWithGc style = ((d.internWithGc style).1, (d.internWithGc style).2.shadow) := by
  unfold internWithGc
  rw [shadow_intern]
  dsimp only
  by_cases h : (d.intern style).1 = 0 ∧ style.isDefault = false ∧
      (d.intern style).2.sheet.styleTable.isFull = true
  · rw [if_pos h, if_pos (by exact h)]
    rfl
  · rw [if_neg h, if_neg (by exact h)]

theorem shadow_blankCell (d : Display) :
    d.shadow.blankCell = (d.blankCell.1, d.blankCell.2.shadow) := by
  unfold blankCell
  rw [shadow_internWithGc]
  rfl

theorem Passive.blank {f : Cell → Display → Display} (hf : ∀ blank, Passive (f blank)) :
    Passive fun d => f d.blankCell.1 d.blankCell.2 := by
  intro d
  dsimp only
  rw [shadow_blankCell]
  exact hf _ _

theorem Passive.withSheet {f : Sheet → Sheet} (hf : ∀ v, f v.shadow = (f v).shadow) :
    Passive (·.withSheet f) := by
  intro d
  show ({ d with sheet := (f d.sheet).shadow } : Display) = { d with sheet := f d.sheet.shadow }
  rw [hf]

theorem passive_scrollUp : Passive scrollUp := by
  refine Passive.blank (f := fun fill d => d.withSheet (·.scrollUp d.state.inAltScreen fill))
    fun fill d => ?_
  exact Passive.withSheet (fun v => v.shadow_scrollUp _ fill) d

theorem passive_scrollDown : Passive scrollDown :=
  Passive.blank (f := fun fill d => d.withSheet (·.scrollDown fill)) fun _ _ => rfl

theorem passive_lineFeed : Passive lineFeed :=
  .ite (fun _ => .rfl) passive_scrollUp
    (.ite (fun _ => .rfl) (.withFrame fun _ => rfl) fun _ => rfl)

theorem passive_restoreCursor : Passive (·.restoreCursor false) := by
  intro d
  dsimp only
  cases hsaved : d.state.savedCursorState with
  | none =>
      have hnone : ∀ d : Display, d.state.savedCursorState = none →
          d.restoreCursor false = d.withFrame (dropWrap false) := by
        intro d hsaved
        unfold restoreCursor
        dsimp only [withFrame, withSheet]
        rw [hsaved]
      rw [hnone d hsaved, hnone d.shadow hsaved]
      rfl
  | some saved =>
      have hsome : ∀ d : Display, d.state.savedCursorState = some saved →
          d.restoreCursor false = (d.withFrame fun f => saved.place (dropWrap false
            { dropWrap false f with wrapPending := saved.wrapPending })).withState
            fun s => { s with currentStyle := saved.style } := by
        intro d hsaved
        unfold restoreCursor
        dsimp only [withFrame, withSheet]
        rw [hsaved]
        rfl
      rw [hsome d hsaved, hsome d.shadow hsaved]
      rfl

theorem passive_enterAltScreen (save : Bool) : Passive (·.enterAltScreen save) := by
  have hbegin : Passive (·.beginEpoch save) := by
    cases save <;> exact fun _ => rfl
  have hsuspend : Passive suspendMain := fun _ => rfl
  exact .ite (fun _ => .rfl) (fun _ => rfl) (hsuspend.comp hbegin)

theorem passive_resumeMain : Passive resumeMain := by
  intro d
  unfold resumeMain
  show shadow { sheet := _, state := _ } = { sheet := _, state := _ }
  dsimp only [shadow, withSheet]
  cases d.state.savedGrid <;> cases d.state.savedModes <;> rfl

theorem passive_resumeRegion : Passive resumeRegion := by
  intro d
  unfold resumeRegion
  show shadow { sheet := _, state := _ } = { sheet := _, state := _ }
  dsimp only [shadow, withSheet]
  cases d.state.savedScrollRegion <;> rfl

/-- The alternate screen is left in the geometry that it was entered in. -/
theorem shadow_exitAltScreen {d : Display} (h : d.resumeInvalid = false) (restore : Bool) :
    d.shadow.exitAltScreen restore = (d.exitAltScreen restore).shadow := by
  have hresume : Passive fun d =>
      (if restore then d.resumeMain.restoreCursor false else d.resumeMain).resumeRegion := by
    refine passive_resumeRegion.comp ?_
    cases restore with
    | true => exact passive_restoreCursor.comp passive_resumeMain
    | false => exact passive_resumeMain
  unfold exitAltScreen
  rw [show d.shadow.resumeInvalid = false from h, h, apply_ite shadow]
  exact congrArg (ite _ _) (hresume d).symm

/-! ### Printing -/

theorem passive_handleCombiningMark (c : Char) : Passive (·.handleCombiningMark c) := by
  intro d
  unfold handleCombiningMark
  dsimp only
  rw [apply_ite shadow, apply_ite shadow]
  rfl

theorem passive_performDeferredWrap : Passive performDeferredWrap :=
  passive_lineFeed.comp (.withFrame fun _ => rfl)

theorem shadow_wideAtMargin (d : Display) (width : Nat) :
    d.shadow.wideAtMargin width = (d.wideAtMargin width).map shadow := by
  unfold wideAtMargin
  rw [apply_ite (Option.map shadow), apply_ite (Option.map shadow), apply_ite (Option.map shadow),
    shadow_blankCell]
  dsimp only [Option.map]
  rw [passive_performDeferredWrap]
  rfl

theorem passive_putChar (c : Char) (width : Nat) : Passive (·.putChar c width) := by
  intro d
  unfold putChar
  dsimp only
  rw [show d.shadow.internWithGc d.shadow.state.currentStyle = _ from shadow_internWithGc d _]
  dsimp only
  refine Passive.withFrame (f := (advance · width)) (fun g => ?_) _
  unfold advance
  rw [apply_ite Frame.shadow]
  rfl

theorem passive_putAtMargin (c : Char) (width : Nat) : Passive fun d =>
    match d.wideAtMargin width with
    | none => d
    | some d => d.putChar c width := by
  intro d
  dsimp only
  rw [shadow_wideAtMargin]
  cases d.wideAtMargin width with
  | none => rfl
  | some d' => exact passive_putChar c width d'

theorem passive_print (charWidth : Char → Nat) (c : Char) : Passive (print charWidth · c) := by
  have hwrap : Passive fun d =>
      if d.sheet.wrapPending ∧ d.sheet.modes.autowrapMode then d.performDeferredWrap else d :=
    .ite (fun _ => .rfl) passive_performDeferredWrap fun _ => rfl
  intro d
  unfold print
  dsimp only
  rw [apply_ite shadow]
  refine congr (congrArg (ite _) ?_) ?_
  · exact passive_handleCombiningMark _ _
  · exact (passive_putAtMargin _ _).comp hwrap _

theorem passive_execute (byte : UInt8) : Passive (·.execute byte) := by
  have hfeed : Passive fun d => (d.withFrame fun f => { f with wrapPending := false }).lineFeed :=
    passive_lineFeed.comp (.withFrame fun _ => rfl)
  intro d
  unfold execute
  dsimp only
  split
  case h_2 => exact hfeed d
  case h_3 => exact hfeed d
  case h_4 => exact hfeed d
  all_goals rfl

/-! ### Control sequences -/

/-- What an erase in the display does, once the blank is interned. -/
def displayErased (mode : Nat) (blank : Cell) (d : Display) : Display :=
  match mode with
  | 0 => d.withSheet fun v => (v.eraseCells d.sheet.cursorY d.sheet.cursorX v.cols blank).eraseRows
      (d.sheet.cursorY + 1) v.rows blank
  | 1 => d.withSheet fun v => (v.eraseRows 0 d.sheet.cursorY blank).eraseCells d.sheet.cursorY 0
      (d.sheet.cursorX + 1) blank
  | 2 => d.withSheet fun v => v.eraseRows 0 v.rows blank
  | 3 => (d.withSheet (·.clearScrollback)).withState (·.pushPassthrough (ascii "\x1b[3J"))
  | _ => d

theorem passive_csiEraseDisplay (mode : Nat) : Passive (·.csiEraseDisplay mode) := by
  refine Passive.blank (f := displayErased mode) fun blank d => ?_
  unfold displayErased
  split
  · refine Passive.withSheet (fun v => ?_) d
    rw [Sheet.shadow_eraseCells]
    exact Sheet.shadow_eraseRows ..
  · refine Passive.withSheet (fun v => ?_) d
    rw [Sheet.shadow_eraseRows]
    exact Sheet.shadow_eraseCells ..
  · exact Passive.withSheet (fun v => Sheet.shadow_eraseRows ..) d
  · rfl
  · rfl

def lineErased (mode : Nat) (blank : Cell) (d : Display) : Display :=
  match mode with
  | 0 => d.withSheet fun v => v.eraseCells d.sheet.cursorY d.sheet.cursorX v.cols blank
  | 1 => d.withSheet fun v => v.eraseCells d.sheet.cursorY 0 (d.sheet.cursorX + 1) blank
  | 2 => d.withSheet fun v => v.eraseCells d.sheet.cursorY 0 v.cols blank
  | _ => d

theorem passive_csiEraseLine (mode : Nat) : Passive (·.csiEraseLine mode) := by
  refine Passive.blank (f := lineErased mode) fun blank d => ?_
  unfold lineErased
  split
  case h_4 => rfl
  all_goals exact Passive.withSheet (fun v => Sheet.shadow_eraseCells ..) d

theorem passive_csiEraseCharacter (n : Nat) : Passive (·.csiEraseCharacter n) :=
  Passive.blank (f := fun blank d =>
    d.withSheet fun v => v.eraseCells v.cursorY v.cursorX (v.cursorX + n) blank)
    fun _ => .withSheet fun v => Sheet.shadow_eraseCells v ..

theorem passive_csiDeleteCharacter (n : Nat) : Passive (·.csiDeleteCharacter n) :=
  Passive.blank (f := fun blank d =>
    d.withSheet fun v => v.modifyLine v.cursorY (deleteCells v.cols v.cursorX n blank)) fun _ _ => rfl

theorem passive_csiInsertCharacter (n : Nat) : Passive (·.csiInsertCharacter n) :=
  Passive.blank (f := fun blank d =>
    d.withSheet fun v => v.modifyLine v.cursorY (insertCells v.cols v.cursorX n blank)) fun _ _ => rfl

theorem shadow_shiftLines (v : Sheet) (n out into : Nat) (blank : Cell) :
    shiftLines v.shadow n out into blank = (shiftLines v n out into blank).shadow := by
  have hstep : Function.Semiconj Sheet.shadow
      (fun v => (v.removeLine out).insertLine into (v.blankLine blank))
      (fun v => (v.removeLine out).insertLine into (v.blankLine blank)) := fun _ => rfl
  exact (hstep.iterate_right n v).symm

theorem passive_moveLines (n : Nat) (out into : Frame → Nat)
    (hout : ∀ f, out f.shadow = out f) (hinto : ∀ f, into f.shadow = into f) :
    Passive fun d => if d.blankCell.2.sheet.scrollTop ≤ d.blankCell.2.sheet.cursorY ∧
        d.blankCell.2.sheet.cursorY ≤ d.blankCell.2.sheet.scrollBottom then
      d.blankCell.2.withSheet fun v => shiftLines (v.withFrame fun f => { f with wrapPending := false })
        (min n (d.blankCell.2.sheet.scrollBottom - d.blankCell.2.sheet.cursorY + 1))
        (out d.blankCell.2.sheet.toFrame) (into d.blankCell.2.sheet.toFrame) d.blankCell.1
      else d.blankCell.2 := by
  refine Passive.blank (f := fun blank d =>
    if d.sheet.scrollTop ≤ d.sheet.cursorY ∧ d.sheet.cursorY ≤ d.sheet.scrollBottom then
      d.withSheet fun v => shiftLines (v.withFrame fun f => { f with wrapPending := false })
        (min n (d.sheet.scrollBottom - d.sheet.cursorY + 1)) (out d.sheet.toFrame)
        (into d.sheet.toFrame) blank
    else d) fun blank => .ite (fun _ => .rfl) (fun d => ?_) fun _ => rfl
  rw [show d.shadow.sheet.toFrame = d.sheet.toFrame.shadow from rfl, hout, hinto]
  refine Passive.withSheet (f := fun v => shiftLines (v.withFrame fun f =>
    { f with wrapPending := false }) _ _ _ blank) (fun v => ?_) d
  exact shadow_shiftLines (v.withFrame fun f => { f with wrapPending := false }) _ _ _ _

theorem passive_csiDeleteLines (n : Nat) : Passive (·.csiDeleteLines n) :=
  passive_moveLines n Frame.cursorY Frame.scrollBottom (fun _ => rfl) fun _ => rfl

theorem passive_csiInsertLines (n : Nat) : Passive (·.csiInsertLines n) :=
  passive_moveLines n Frame.scrollBottom Frame.cursorY (fun _ => rfl) fun _ => rfl

theorem passive_csiSetScrollingRegion (top bottom : Nat) :
    Passive (·.csiSetScrollingRegion top bottom) := by
  refine .withFrame fun f => ?_
  by_cases h : top - 1 ≤ min (bottom - 1) (f.rows - 1)
  · have h' : top - 1 ≤ min (bottom - 1) (f.shadow.rows - 1) := h
    rw [Frame.setScrollingRegion, Frame.setScrollingRegion, if_pos h, if_pos h']
    rfl
  · have h' : ¬top - 1 ≤ min (bottom - 1) (f.shadow.rows - 1) := h
    rw [Frame.setScrollingRegion, Frame.setScrollingRegion, if_neg h, if_neg h']
    rfl

theorem passive_csiWindow (cmd scope : Nat) : Passive (·.csiWindow cmd scope) := by
  intro d
  have hstack : d.shadow.state.titleStack = d.state.titleStack := rfl
  unfold csiWindow
  dsimp only
  rw [apply_ite shadow, apply_ite shadow, apply_ite shadow, hstack]
  cases d.state.titleStack <;> rfl

/-! ### Escape sequences -/

theorem passive_fullReset : Passive fullReset := by
  intro d
  unfold fullReset
  dsimp only
  rw [show (d.shadow.sheet.withFrame (resetFrame · d.shadow.mainLimit)).eraseRows 0
    (d.shadow.sheet.withFrame (resetFrame · d.shadow.mainLimit)).rows {} = _ from
    Sheet.shadow_eraseRows (d.sheet.withFrame (resetFrame · d.mainLimit)) 0 _ {}]
  rfl

theorem passive_alignmentPattern : Passive alignmentPattern := by
  intro d
  unfold alignmentPattern
  dsimp only
  rw [show (d.shadow.withFrame fun f => { f.resetScrollRegion with
      cursorX := 0, cursorY := 0, wrapPending := false }).internWithGc {} = _ from
    shadow_internWithGc (d.withFrame fun f => { f.resetScrollRegion with
      cursorX := 0, cursorY := 0, wrapPending := false }) {}]
  refine Passive.withSheet (fun v => ?_) _
  refine Sheet.shadow_foldl (fun v y => ?_) v _
  exact Sheet.shadow_foldl (fun _ _ => rfl) v _

theorem passive_reverseIndex : Passive reverseIndex :=
  .ite (fun _ => .rfl) passive_scrollDown
    (.ite (fun _ => .rfl) (.withFrame fun _ => rfl) fun _ => rfl)

theorem passive_escDispatch (intermediates : Bytes) (byte : UInt8) :
    Passive (·.escDispatch intermediates byte) := by
  intro d
  unfold escDispatch
  dsimp only
  split
  case h_2 => exact passive_lineFeed (d.withFrame _)
  case h_3 => exact passive_lineFeed (d.withFrame _)
  case h_4 => exact passive_reverseIndex d
  case h_6 => exact passive_restoreCursor d
  case h_7 => exact passive_fullReset d
  case h_14 => exact passive_alignmentPattern d
  all_goals rfl

theorem passive_oscDispatch (params : List Bytes) (bell : Bool) :
    Passive (·.oscDispatch params bell) := by
  intro d
  unfold oscDispatch
  dsimp only
  rw [apply_ite shadow]
  refine congrArg (ite _ _) ?_
  split
  case h_1 => split <;> rfl
  case h_2 => split <;> rfl
  all_goals rfl

/-! ### Without a resize -/

structure Settled (d : Display) : Prop where
  cursor : ∀ cursor ∈ d.state.savedCursorState, cursor.y < d.sheet.rows
  saved : ∀ saved ∈ d.state.savedGrid,
    saved.saveCols = d.sheet.cols ∧ saved.lines.length = d.sheet.rows

theorem Settled.resumeInvalid {d : Display} (h : d.Settled) : d.resumeInvalid = false := by
  unfold Display.resumeInvalid
  cases hsaved : d.state.savedGrid with
  | none => rfl
  | some saved =>
      obtain ⟨hcols, hrows⟩ := h.saved saved hsaved
      have hcols' : d.sheet.toFrame.cols = saved.saveCols := hcols.symm
      rw [Option.any_some, geometryInvalid, hcols', hrows, Nat.min_self]
      cases hcursor : d.state.savedCursorState with
      | none => simp
      | some cursor => simpa using h.cursor cursor hcursor

theorem Settled.of_eq {d d' : Display} (h : d.Settled) (hsize : d'.sheet.size = d.sheet.size)
    (hcursor : d'.state.savedCursorState = d.state.savedCursorState)
    (hsaved : d'.state.savedGrid = d.state.savedGrid) : d'.Settled := by
  have hrows : d'.sheet.rows = d.sheet.rows := congrArg TerminalSize.rows hsize
  have hcols : d'.sheet.cols = d.sheet.cols := congrArg TerminalSize.cols hsize
  refine ⟨?_, ?_⟩
  · rw [hcursor, hrows]
    exact h.cursor
  · rw [hsaved, hrows, hcols]
    exact h.saved

theorem Settled.saveCursor {d : Display} (hd : d.Ok) (h : d.Settled) (altEpoch : Option Nat)
    (savedByAlt1049 : Bool) : (d.saveCursor altEpoch savedByAlt1049).Settled := by
  refine ⟨?_, h.saved⟩
  rintro cursor ⟨⟩
  exact hd.fits.cursorY

theorem Settled.enterAltScreen {d : Display} (hd : d.Ok) (h : d.Settled) (save : Bool) :
    (d.enterAltScreen save).Settled := by
  have hbegin : (d.beginEpoch save).Settled := by
    cases save with
    | true =>
        refine ⟨?_, h.saved⟩
        rintro cursor ⟨⟩
        exact hd.fits.cursorY
    | false => exact h.of_eq rfl rfl rfl
  have hsheet : (d.beginEpoch save).sheet = d.sheet := by
    cases save <;> rfl
  unfold Display.enterAltScreen
  split_ifs
  · exact h
  · refine ⟨hbegin.cursor, ?_⟩
    rintro saved ⟨⟩
    refine ⟨rfl, ?_⟩
    show (d.beginEpoch save).sheet.lines.length = (d.beginEpoch save).sheet.rows
    rw [hsheet]
    exact hd.fits.rows

theorem Settled.resumeMain {d : Display} (h : d.Settled) : d.resumeMain.Settled := by
  have hsize : d.resumeMain.sheet.size = d.sheet.size := by
    unfold Display.resumeMain
    dsimp only
    cases d.state.savedGrid <;> cases d.state.savedModes <;> rfl
  refine ⟨?_, ?_⟩
  · rw [show d.resumeMain.sheet.rows = d.sheet.rows from congrArg TerminalSize.rows hsize]
    exact h.cursor
  · rintro saved ⟨⟩

theorem Settled.restoreCursor {d : Display} (h : d.Settled) (geometryInvalid : Bool) :
    (d.restoreCursor geometryInvalid).Settled := by
  unfold Display.restoreCursor
  dsimp only
  split <;> exact h.of_eq rfl rfl rfl

theorem Settled.resumeRegion {d : Display} (h : d.Settled) : d.resumeRegion.Settled := by
  refine h.of_eq ?_ rfl rfl
  show (restoreRegion d.sheet.toFrame d.state.savedScrollRegion).size = d.sheet.size
  cases d.state.savedScrollRegion <;> rfl

theorem Settled.exitAltScreen {d : Display} (h : d.Settled) (restore : Bool) :
    (d.exitAltScreen restore).Settled := by
  unfold Display.exitAltScreen
  split_ifs
  · exact h
  · exact (h.resumeMain.restoreCursor _).resumeRegion
  · exact h.resumeMain.resumeRegion

theorem Settled.change {R : Rules} {d d' : Display} (hd : d.Ok) (c : Change R d d') (h : d.Settled) :
    d'.Settled := by
  cases c with
  | frame f hsize _ => exact h.of_eq hsize rfl rfl
  | state f _ hsaved hcursor _ _ => exact h.of_eq rfl hcursor hsaved
  | save _ => exact h.saveCursor hd _ _
  | capture fill _ _ =>
      refine h.of_eq ?_ rfl rfl
      show d.sheet.capture.size = d.sheet.size
      rw [d.sheet.capture_toFrame]
  | enter save _ => exact h.enterAltScreen hd save
  | exit restore _ _ => exact h.exitAltScreen restore
  | reset _ =>
      have hcursor : d.fullReset.state.savedCursorState = none := by
        unfold fullReset ScreenState.pushPassthrough
        dsimp only
        split_ifs <;> rfl
      have hsaved : d.fullReset.state.savedGrid = none := by
        unfold fullReset ScreenState.pushPassthrough
        dsimp only
        split_ifs <;> rfl
      refine ⟨?_, ?_⟩
      · simp [hcursor]
      · simp [hsaved]
  | _ => exact h.of_eq rfl rfl rfl

/-! ### The callbacks -/

theorem shadow_setDecPrivateMode {d : Display} (h : d.Settled) (mode : Nat) (enable : Bool) :
    d.shadow.setDecPrivateMode mode enable = (d.setDecPrivateMode mode enable).shadow := by
  have halt : ∀ save : Bool,
      (if enable then d.shadow.enterAltScreen save else d.shadow.exitAltScreen save) =
        (if enable then d.enterAltScreen save else d.exitAltScreen save).shadow := by
    intro save
    cases enable with
    | true => exact (passive_enterAltScreen save d).symm
    | false => exact shadow_exitAltScreen h.resumeInvalid save
  unfold setDecPrivateMode
  split
  case h_2 => cases enable <;> rfl
  case h_11 =>
    cases enable with
    | true => rfl
    | false => exact (passive_restoreCursor d).symm
  case h_13 => exact halt true
  case h_14 => exact halt false
  case h_15 => exact halt false
  all_goals rfl

theorem shadow_csiSetDecPrivateMode {d : Display} (hd : d.Ok) (h : d.Settled)
    (ps : List (List Nat)) (enable : Bool) :
    d.shadow.csiSetDecPrivateMode ps enable = (d.csiSetDecPrivateMode ps enable).shadow := by
  unfold csiSetDecPrivateMode
  induction ps generalizing d with
  | nil => rfl
  | cons p ps ih =>
      cases p with
      | nil => exact ih hd h
      | cons mode rest =>
          have hchanges : Changes anything d (d.setDecPrivateMode mode enable) :=
            changes_setDecPrivateMode hd mode enable (fun _ _ => trivial) fun _ _ _ => trivial
          rw [List.foldl_cons, List.foldl_cons]
          dsimp only
          rw [shadow_setDecPrivateMode h]
          exact ih hchanges.ok (hchanges.invariant (fun hd c h => Settled.change hd c h) h)

theorem shadow_csiDispatch (charWidth : Char → Nat) {d : Display} (hd : d.Ok) (h : d.Settled)
    (ps : List (List Nat)) (intermediates : Bytes) (action : Char) :
    d.shadow.csiDispatch charWidth ps intermediates action =
      (d.csiDispatch charWidth ps intermediates action).shadow := by
  have hiff : ∀ {p : Prop} [Decidable p] {d' d'' : Display}, d'' = d'.shadow →
      (if p then d'' else d.shadow) = (if p then d' else d).shadow := by
    intro p _ d' d'' heq
    rw [heq, apply_ite shadow]
  unfold csiDispatch
  dsimp only
  split
  case h_11 => exact (passive_csiEraseDisplay _ d).symm
  case h_12 => exact (passive_csiEraseLine _ d).symm
  case h_13 => exact (passive_csiEraseCharacter _ d).symm
  case h_14 => exact (passive_csiDeleteCharacter _ d).symm
  case h_15 => exact (passive_csiInsertCharacter _ d).symm
  case h_16 => exact ((passive_print charWidth _).iterate_right _ d).symm
  case h_18 => exact hiff rfl
  case h_19 =>
    rw [apply_ite shadow, apply_ite shadow]
    rfl
  case h_20 => exact hiff rfl
  case h_21 => exact (passive_scrollUp.iterate_right _ d).symm
  case h_22 => exact hiff (passive_scrollDown.iterate_right _ d).symm
  case h_23 => exact (passive_csiDeleteLines _ d).symm
  case h_24 => exact (passive_csiInsertLines _ d).symm
  case h_25 => exact hiff (passive_csiSetScrollingRegion _ _ d).symm
  case h_26 => exact hiff rfl
  case h_27 => exact hiff (passive_restoreCursor d).symm
  case h_28 =>
    refine hiff ?_
    split <;> rfl
  case h_29 => exact (passive_csiWindow _ _ d).symm
  case h_30 => exact hiff (shadow_csiSetDecPrivateMode hd h ps true)
  case h_31 => exact hiff (shadow_csiSetDecPrivateMode hd h ps false)
  all_goals rfl

theorem shadow_callback (charWidth : Char → Nat) {d : Display} (hd : d.Ok) (h : d.Settled)
    (c : Callback) : d.shadow.callback charWidth c = (d.callback charWidth c).shadow := by
  cases c with
  | print c => exact (passive_print charWidth c d).symm
  | execute byte => exact (passive_execute byte d).symm
  | csiDispatch params intermediates action =>
      exact shadow_csiDispatch charWidth hd h params intermediates action
  | escDispatch intermediates byte => exact (passive_escDispatch intermediates byte d).symm
  | oscDispatch params bell => exact (passive_oscDispatch params bell d).symm

theorem ok_shadow {d : Display} (h : d.Ok) : d.shadow.Ok := by
  have hmoves : d.sheet.toFrame.Moves d.sheet.toFrame.shadow :=
    .of_cursor rfl rfl rfl rfl rfl rfl rfl rfl fun h => ⟨h.cursorX, h.cursorY⟩
  exact (Effect.withFrame h hmoves).ok

theorem Settled.callback (charWidth : Char → Nat) {d : Display} (hd : d.Ok) (h : d.Settled)
    (c : Callback) : (d.callback charWidth c).Settled := by
  have hchanges := changes_callback charWidth hd (admits_anything charWidth d c)
  exact hchanges.invariant (fun hd c h => Settled.change hd c h) h

end Display

/-! ### The two grids -/

namespace Screen

/-- The two grids hold the same: cells and marks of the visible and of the scrollback rows,
and all of the frame but the flag, with the cursor, the modes, the scroll region and the
styles in it; so does what is set aside beside them. -/
structure Agree (s : Screen) : Prop where
  visibleRows : s.logical.grid.visibleRows.map Row.toLine = s.terminal.grid.visibleRows.map Row.toLine
  scrollbackRows :
    s.logical.grid.scrollbackRows.map Row.toLine = s.terminal.grid.scrollbackRows.map Row.toLine
  frame : s.logical.grid.toFrame = s.terminal.grid.toFrame.shadow
  state : s.logical.state.map SavedGrid.shown = s.terminal.state.map SavedGrid.shown

def Parallel (s : Screen) : Prop :=
  ∃ d : Display, d.Ok ∧ d.Settled ∧ s.terminal.Shows d ∧ s.logical.Shows d.shadow

variable {charWidth : Char → Nat} {s s' : Screen}

theorem parallel_new (cols rows : UInt16) (limit : Nat) : (Screen.new cols rows limit).Parallel := by
  refine ⟨_, Terminal.ok_new cols rows limit false, ⟨?_, ?_⟩, Terminal.shows_new ..,
    Terminal.shows_new cols rows limit true⟩
  · rintro cursor ⟨⟩
  · rintro saved ⟨⟩

theorem Parallel.step? (h : s.Parallel) {c : Callback}
    (hstep : s.step? charWidth (.callback c) = some s') : s'.Parallel := by
  obtain ⟨d, hd, hsettled, ht, hl⟩ := h
  obtain ⟨hterminal, hlogical⟩ := step?_terminals hstep
  obtain ⟨_, ⟨⟩, ht', hok⟩ := ht.of_step? hd hterminal
  obtain ⟨_, ⟨⟩, hl', -⟩ := hl.of_step? (Display.ok_shadow hd) hlogical
  rw [Display.shadow_callback charWidth hd hsettled] at hl'
  exact ⟨_, hok, hsettled.callback charWidth hd c, ht', hl'⟩

theorem Parallel.run? (h : s.Parallel) {callbacks : List Callback}
    (hrun : s.run? charWidth (callbacks.map .callback) = some s') : s'.Parallel := by
  induction callbacks generalizing s with
  | nil =>
      cases hrun
      exact h
  | cons c callbacks ih =>
      obtain ⟨s₁, hstep, hrun⟩ := Option.bind_eq_some_iff.mp hrun
      exact ih (h.step? hstep) hrun

theorem Parallel.agree (h : s.Parallel) : s.Agree := by
  obtain ⟨d, hd, -, ht, hl⟩ := h
  refine ⟨?_, ?_, ?_, ?_⟩
  · rw [Terminal.map_toLine_visibleRows ht.grid hd.fits,
      Terminal.map_toLine_visibleRows hl.grid (Display.ok_shadow hd).fits]
    rfl
  · rw [Terminal.map_toLine_scrollbackRows ht.grid, Terminal.map_toLine_scrollbackRows hl.grid]
    rfl
  · rw [ht.grid.frame, hl.grid.frame]
    rfl
  · rw [ht.state, hl.state]
    rfl

/-- Without a resize the two grids never diverge. -/
theorem agree_of_callbacks (charWidth : Char → Nat) (cols rows : UInt16) (limit : Nat)
    {callbacks : List Callback} {s : Screen}
    (hrun : (Screen.new cols rows limit).run? charWidth (callbacks.map .callback) = some s) :
    s.Agree :=
  ((parallel_new cols rows limit).run? hrun).agree

/-- A wrap, a cursor saved, a visit to the alternate screen, the cursor restored, a wrap. -/
def wrapsAround : List Callback :=
  [.print 'a', .print 'b', .print 'c', .print 'd', .escDispatch [] 0x37,
    .csiDispatch [[1049]] (ascii "?") 'h', .print 'x', .execute 0x0A,
    .csiDispatch [[1049]] (ascii "?") 'l', .escDispatch [] 0x38, .print 'e']

theorem agree_wrapsAround : ∃ s,
    (Screen.new 2 2 1).run? (fun _ => 1) (wrapsAround.map .callback) = some s ∧ s.Agree := by
  obtain ⟨s, hrun⟩ : ∃ s,
      (Screen.new 2 2 1).run? (fun _ => 1) (wrapsAround.map .callback) = some s := ⟨_, rfl⟩
  exact ⟨s, hrun, agree_of_callbacks (fun _ => 1) 2 2 1 hrun⟩

end Screen

end QuorumDispatch.Screen
