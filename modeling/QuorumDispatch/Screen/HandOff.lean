import QuorumDispatch.Screen.AltScreen
import QuorumDispatch.Screen.Render

/-!
Handing rows over. The rows that scrolled off since the last `take_pending_scrollback` are
the end of the scrollback, from an index on that moves down when the oldest rows are
evicted. As long as not more rows scroll off than the scrollback holds, none is lost.
-/

namespace QuorumDispatch.Screen

open Lib

set_option linter.dupNamespace false

namespace Terminal

def history (t : Terminal) : List Line := t.grid.scrollbackRows.map Row.toLine

/-- The rows that `take_pending_scrollback` takes. -/
def pendingRows (t : Terminal) : List Line :=
  ((t.grid.scrollbackRows.drop t.grid.pendingStart).take
    (t.grid.scrollbackLen - t.grid.pendingStart)).map Row.toLine

/-- The rows that left the screen from one state of a terminal to a later one. -/
def leftBetween (t t' : Terminal) : List Line := t'.grid.captured.drop t.grid.captured.length

variable {t t' : Terminal} {d d' : Display}

theorem leftBetween_trans {t'' : Terminal} (h : t.grid.captured <+: t'.grid.captured)
    (h' : t'.grid.captured <+: t''.grid.captured) :
    t.leftBetween t'' = t.leftBetween t' ++ t'.leftBetween t'' := by
  obtain ⟨rows, hrows⟩ := h
  obtain ⟨rows', hrows'⟩ := h'
  simp [leftBetween, ← hrows', ← hrows, List.append_assoc]

theorem history_eq (h : t.Shows d) : t.history = d.sheet.history := map_toLine_scrollbackRows h.grid

theorem pendingRows_eq (h : t.Shows d) : t.pendingRows = t.history.drop t.grid.pendingStart := by
  have hlen : t.grid.scrollbackRows.length = t.grid.scrollbackLen := by
    rw [h.grid.boundary, ← history_eq h, history, List.length_map]
  rw [pendingRows, history, List.map_take, List.map_drop, List.take_of_length_le]
  rw [List.length_drop, List.length_map, hlen]

/-- A terminal after `rows` left the screen and `evicted` rows the scrollback, which was
cleared before or not. -/
structure Scrolls (cleared : Bool) (t t' : Terminal) (rows : List Line) (evicted : Nat) : Prop where
  captured : t'.grid.captured = t.grid.captured ++ rows
  history : t'.history = ((if cleared then [] else t.history) ++ rows).drop evicted
  pending : t'.grid.pendingStart = (if cleared then 0 else t.grid.pendingStart) - evicted
  evicted_le : evicted ≤ (if cleared then [] else t.history).length + rows.length - t.mainLimit
  bound : rows ≠ [] → t'.history.length ≤ t.mainLimit

theorem Scrolls.leftBetween {cleared : Bool} {rows : List Line} {evicted : Nat}
    (h : Scrolls cleared t t' rows evicted) : t.leftBetween t' = rows := by
  rw [Terminal.leftBetween, h.captured, List.drop_left]

theorem scrolls_of_effect {cleared : Bool} (hs : t.Shows d) (hs' : t'.Shows d')
    (h : Display.Effect cleared d d') : ∃ rows evicted, Scrolls cleared t t' rows evicted := by
  obtain ⟨rows, evicted, hscrolls⟩ := h.scrolls
  have hcaptured : t.grid.captured = d.sheet.captured := congrArg Frame.captured hs.frame
  have hpending : t.grid.pendingStart = d.sheet.pendingStart := congrArg Frame.pendingStart hs.frame
  have hcaptured' : t'.grid.captured = d'.sheet.captured := congrArg Frame.captured hs'.frame
  have hpending' : t'.grid.pendingStart = d'.sheet.pendingStart :=
    congrArg Frame.pendingStart hs'.frame
  refine ⟨rows, evicted, ?_⟩
  cases cleared with
  | false =>
      refine ⟨?_, ?_, ?_, ?_, ?_⟩
      · rw [hcaptured', hcaptured]
        exact hscrolls.captured
      · rw [history_eq hs', history_eq hs]
        exact hscrolls.history
      · rw [hpending', hpending]
        exact hscrolls.pending
      · rw [history_eq hs, mainLimit_eq hs]
        exact hscrolls.evicted_le
      · rw [history_eq hs', mainLimit_eq hs]
        exact hscrolls.bound
  | true =>
      refine ⟨?_, ?_, ?_, ?_, ?_⟩
      · rw [hcaptured', hcaptured]
        exact hscrolls.captured
      · rw [history_eq hs']
        exact hscrolls.history
      · rw [hpending']
        exact hscrolls.pending
      · rw [mainLimit_eq hs]
        exact hscrolls.evicted_le
      · rw [history_eq hs', mainLimit_eq hs]
        exact hscrolls.bound

theorem effect_run {charWidth : Char → Nat} (hs : t.Shows d) (hd : d.Ok) {callbacks : List Callback}
    (hclears : ∀ c ∈ callbacks, c.clears = false)
    (hrun : t.run? charWidth (callbacks.map .callback) = some t') :
    ∃ d', t'.Shows d' ∧ Display.Effect false d d' := by
  induction callbacks generalizing t d with
  | nil =>
      cases hrun
      exact ⟨d, hs, .refl hd⟩
  | cons c callbacks ih =>
      obtain ⟨t₁, hstep, hrun⟩ := Option.bind_eq_some_iff.mp hrun
      obtain ⟨d₁, hd₁, hs₁, hok₁⟩ := hs.of_step? hd hstep
      cases hd₁
      have heffect := Display.effect_callback charWidth hd c
      rw [hclears c List.mem_cons_self] at heffect
      obtain ⟨d', hs', heffect'⟩ :=
        ih hs₁ hok₁ (fun c hc => hclears c (List.mem_cons_of_mem _ hc)) hrun
      exact ⟨d', hs', heffect.trans heffect'⟩

end Terminal

/-- The last `n` of some rows. -/
def lastRows (n : Nat) (rows : List Line) : List Line := rows.drop (rows.length - n)

theorem lastRows_of_le {n : Nat} {rows : List Line} (h : rows.length ≤ n) : lastRows n rows = rows := by
  rw [lastRows, Nat.sub_eq_zero_of_le h, List.drop_zero]

theorem Terminal.Scrolls.pendingRows {t t' : Terminal} {rows : List Line} {evicted : Nat}
    (h : Scrolls false t t' rows evicted) (hpending : t.grid.pendingStart = t.history.length)
    (hlimit : t.history.length ≤ t.mainLimit) :
    t'.history.drop t'.grid.pendingStart = lastRows t.mainLimit rows := by
  have hhist : t'.history = (t.history ++ rows).drop evicted := h.history
  have hstart : t'.grid.pendingStart = t.history.length - evicted := by
    rw [h.pending, ← hpending]
    rfl
  have hevicted : evicted ≤ t.history.length + rows.length - t.mainLimit := h.evicted_le
  have hexact : evicted = t.history.length + rows.length - t.mainLimit := by
    rcases eq_or_ne rows [] with rfl | hne
    · rw [List.length_nil] at hevicted ⊢
      omega
    · have hbound := h.bound hne
      rw [hhist, List.length_drop, List.length_append] at hbound
      omega
  rw [hhist, hstart, List.drop_drop, lastRows, List.drop_append]
  -- either the rows of before go first, or all of them are gone
  rw [List.drop_of_length_le (by omega), List.nil_append]
  congr 1
  omega

/-! ### Taking -/

namespace Terminal

def InOrderUnder (limit : Nat) (t : Terminal) : Prop :=
  ∃ d : Display, d.Ok ∧ t.Shows d ∧ d.mainLimit = limit

variable {limit : Nat} {t t' : Terminal}

theorem inOrderUnder_new (cols rows : UInt16) (limit : Nat) (logicalShadow : Bool) :
    InOrderUnder limit { grid := .new cols rows limit logicalShadow } :=
  ⟨_, ok_new cols rows limit logicalShadow, shows_new .., rfl⟩

theorem InOrderUnder.step? {charWidth : Char → Nat} (h : t.InOrderUnder limit) {e : Event}
    (hstep : t.step? charWidth e = some t') : t'.InOrderUnder limit := by
  obtain ⟨d, hd, hs, hlimit⟩ := h
  obtain ⟨d', hd', hs', hok⟩ := hs.of_step? hd hstep
  refine ⟨d', hok, hs', ?_⟩
  cases hd' with
  | callback c => exact (Display.effect_callback charWidth hd c).limit.trans hlimit
  | resize cols rows keepWrap => exact (Display.mainLimit_resize d cols rows keepWrap).trans hlimit

theorem InOrderUnder.run? {charWidth : Char → Nat} (h : t.InOrderUnder limit) {events : List Event}
    (hrun : t.run? charWidth events = some t') : t'.InOrderUnder limit := by
  induction events generalizing t with
  | nil =>
      cases hrun
      exact h
  | cons e events ih =>
      obtain ⟨t₁, hstep, hrun⟩ := Option.bind_eq_some_iff.mp hrun
      exact ih (h.step? hstep) hrun

/-- `take_pending_scrollback` moves the index to the end. -/
def take (t : Terminal) : Terminal := { t with grid.pendingStart := t.grid.scrollbackLen }

theorem InOrderUnder.take (h : t.InOrderUnder limit) : t.take.InOrderUnder limit := by
  obtain ⟨d, hd, hs, hlimit⟩ := h
  have hlen : t.grid.scrollbackLen = d.sheet.history.length := hs.grid.boundary
  refine ⟨d.withFrame fun f => { f with pendingStart := t.grid.scrollbackLen }, ?_,
    hs.withFrame fun f => { f with pendingStart := t.grid.scrollbackLen }, hlimit⟩
  exact
    { fits := hd.fits.of_lines rfl rfl
      pending := hlen.le
      history := hd.history
      main := hd.main
      alt := hd.alt
      title := hd.title
      titleStack := hd.titleStack }

theorem InOrderUnder.mainLimit (h : t.InOrderUnder limit) : t.mainLimit = limit := by
  obtain ⟨d, -, hs, hlimit⟩ := h
  rw [mainLimit_eq hs, hlimit]

theorem InOrderUnder.pendingRows_run (h : t.InOrderUnder limit) {charWidth : Char → Nat}
    {callbacks : List Callback} (hclears : ∀ c ∈ callbacks, c.clears = false)
    (hrun : t.take.run? charWidth (callbacks.map .callback) = some t') :
    t.grid.captured <+: t'.grid.captured ∧
      t'.pendingRows = lastRows limit (t.leftBetween t') := by
  have hlimit := h.take.mainLimit
  obtain ⟨d, hd, hs, hmain⟩ := h.take
  obtain ⟨d', hs', heffect⟩ := effect_run hs hd hclears hrun
  obtain ⟨rows, evicted, hscrolls⟩ := scrolls_of_effect hs hs' heffect
  have hlength : t.take.history.length ≤ t.take.mainLimit := by
    rw [history_eq hs, hlimit, ← hmain]
    exact hd.history
  have hpending : t.take.grid.pendingStart = t.take.history.length := by
    rw [history_eq hs, ← hs.grid.boundary]
    rfl
  have hleft : t.leftBetween t' = rows := hscrolls.leftBetween
  refine ⟨⟨rows, hscrolls.captured.symm⟩, ?_⟩
  rw [pendingRows_eq hs', hscrolls.pendingRows hpending hlength, hlimit, hleft]

end Terminal

namespace Screen

/-- What is done with a screen: an event of the emulator, or a take. -/
inductive Access where
  | event (e : Event)
  | take
deriving DecidableEq, Repr

def access? (charWidth : Char → Nat) (s : Screen) : Access → Option Screen
  | .event e => s.step? charWidth e
  | .take => some s.takePendingScrollback.2

def accesses? (charWidth : Char → Nat) (s : Screen) (accesses : List Access) : Option Screen :=
  accesses.foldlM (access? charWidth) s

/-- Takes with callbacks in between. The screens are those that the later takes find. -/
def takes? (charWidth : Char → Nat) : Screen → List (List Callback) → Option (List Screen)
  | _, [] => some []
  | s, callbacks :: rest => do
      let s ← s.takePendingScrollback.2.run? charWidth (callbacks.map .callback)
      let screens ← takes? charWidth s rest
      some (s :: screens)

/-- Each take returns the last of the rows that left since the one before, rendered. -/
def HandsOff (limit : Nat) : Screen → List Screen → Prop
  | _, [] => True
  | s, s' :: screens =>
      s.terminal.grid.captured <+: s'.terminal.grid.captured ∧
        s'.terminal.pendingRows = lastRows limit (s.terminal.leftBetween s'.terminal) ∧
        s'.takePendingScrollback.1 =
          s'.terminal.pendingRows.map (renderLine · s'.terminal.grid.styleTable) ∧
        HandsOff limit s' screens

/-- From each take to the next, not more rows left than the scrollback holds. -/
def Within (limit : Nat) : Screen → List Screen → Prop
  | _, [] => True
  | s, s' :: screens =>
      (s.terminal.leftBetween s'.terminal).length ≤ limit ∧ Within limit s' screens

theorem inOrderUnder_accesses? {charWidth : Char → Nat} {cols rows : UInt16} {limit : Nat}
    {accesses : List Access} {s : Screen}
    (h : (Screen.new cols rows limit).accesses? charWidth accesses = some s) :
    s.terminal.InOrderUnder limit := by
  have hstart : (Screen.new cols rows limit).terminal.InOrderUnder limit :=
    Terminal.inOrderUnder_new cols rows limit false
  generalize Screen.new cols rows limit = s₀ at h hstart
  induction accesses generalizing s₀ with
  | nil =>
      cases h
      exact hstart
  | cons access accesses ih =>
      obtain ⟨s₁, hstep, hrun⟩ := Option.bind_eq_some_iff.mp h
      refine ih s₁ hrun ?_
      cases access with
      | event e => exact hstart.step? (step?_terminals hstep).1
      | take =>
          cases hstep
          exact hstart.take

theorem takes?_handsOff {charWidth : Char → Nat} {limit : Nat} {s : Screen}
    (h : s.terminal.InOrderUnder limit) {segments : List (List Callback)}
    (hclears : ∀ callbacks ∈ segments, ∀ c ∈ callbacks, c.clears = false) {screens : List Screen}
    (hrun : s.takes? charWidth segments = some screens) : HandsOff limit s screens := by
  induction segments generalizing s screens with
  | nil =>
      cases hrun
      trivial
  | cons callbacks segments ih =>
      obtain ⟨s', hs', hrun⟩ := Option.bind_eq_some_iff.mp hrun
      obtain ⟨screens', hscreens, hrun⟩ := Option.bind_eq_some_iff.mp hrun
      cases hrun
      have hcallbacks := hclears callbacks List.mem_cons_self
      have hterminal := (run?_terminals hs').1
      obtain ⟨hcaptured, hpending⟩ := h.pendingRows_run hcallbacks hterminal
      have hafter : s'.terminal.InOrderUnder limit := h.take.run? hterminal
      refine ⟨hcaptured, hpending, ?_,
        ih hafter (fun cs hcs => hclears cs (List.mem_cons_of_mem _ hcs)) hscreens⟩
      rw [takePendingScrollback, Terminal.pendingRows, List.map_map]
      rfl

theorem HandsOff.flatMap_pendingRows {limit : Nat} {s last : Screen} {screens : List Screen}
    (h : HandsOff limit s screens) (hwithin : Within limit s screens)
    (hlast : (s :: screens).getLast? = some last) :
    s.terminal.grid.captured <+: last.terminal.grid.captured ∧
      screens.flatMap (fun s' => s'.terminal.pendingRows) =
        s.terminal.leftBetween last.terminal := by
  induction screens generalizing s with
  | nil =>
      cases hlast
      exact ⟨List.prefix_rfl, by simp [Terminal.leftBetween]⟩
  | cons s' screens ih =>
      obtain ⟨hcaptured, hpending, -, hrest⟩ := h
      rw [List.getLast?_cons_cons] at hlast
      obtain ⟨hcaptured', hrest⟩ := ih hrest hwithin.2 hlast
      refine ⟨hcaptured.trans hcaptured', ?_⟩
      rw [List.flatMap_cons, hrest, hpending, lastRows_of_le hwithin.1,
        Terminal.leftBetween_trans hcaptured hcaptured']

/-- From every state that the emulator and earlier takes reach, takes with callbacks in
between that do not clear the scrollback: each returns the last of the rows that left since
the one before, as many as the scrollback holds, and together they return every row once
unless one comes too late. -/
theorem handsOff_takes (charWidth : Char → Nat) (cols rows : UInt16) (limit : Nat)
    {accesses : List Access} {s : Screen}
    (hreach : (Screen.new cols rows limit).accesses? charWidth accesses = some s)
    {segments : List (List Callback)}
    (hclears : ∀ callbacks ∈ segments, ∀ c ∈ callbacks, c.clears = false) {screens : List Screen}
    (hrun : s.takes? charWidth segments = some screens) :
    HandsOff limit s screens ∧
      (Within limit s screens → ∀ last ∈ (s :: screens).getLast?,
        screens.flatMap (fun s' => s'.terminal.pendingRows) =
          s.terminal.leftBetween last.terminal) := by
  have h := takes?_handsOff (inOrderUnder_accesses? hreach) hclears hrun
  exact ⟨h, fun hwithin last hlast => (h.flatMap_pendingRows hwithin hlast).2⟩

/-- Three lines on a screen of one row with a scrollback of two, a visit to the alternate
screen, and two takes. -/
def threeLines : List Callback :=
  [.print 'a', .execute 0x0A, .csiDispatch [[1049]] (ascii "?") 'h', .execute 0x0A,
    .csiDispatch [[1049]] (ascii "?") 'l', .print 'b', .execute 0x0A, .print 'c', .execute 0x0A]

theorem handsOff_threeLines : ∃ screens,
    (Screen.new 3 1 2).takes? (fun _ => 1) [threeLines, [.execute 0x0A]] = some screens ∧
      HandsOff 2 (Screen.new 3 1 2) screens := by
  have hreach : (Screen.new 3 1 2).accesses? (fun _ => 1) [] = some (Screen.new 3 1 2) := rfl
  obtain ⟨screens, hrun⟩ : ∃ screens,
      (Screen.new 3 1 2).takes? (fun _ => 1) [threeLines, [.execute 0x0A]] = some screens := ⟨_, rfl⟩
  exact ⟨screens, hrun, (handsOff_takes (fun _ => 1) 3 1 2 hreach (by decide) hrun).1⟩

end Screen

end QuorumDispatch.Screen
