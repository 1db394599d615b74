import QuorumDispatch.Server.Attach

/-!
Rows that leave the screen while a client is attached. A row that leaves between the
snapshot and the drain is sent by neither: it comes too late for the history, and the drain
discards it. Apart from that, from rows that are cleared or evicted before they are sent,
and from the rows of the screen that a logical history sends ahead, every row is sent once.
-/

namespace QuorumDispatch.Server

open Lib Screen

namespace Session

/-! ### The condition -/

def scrolledOff (charWidth : Char → Nat) (t : Terminal) (callback : Callback) : Nat :=
  ((t.callback? charWidth callback).map fun t' => (t.leftBetween t').length).getD 0

def waiting (c : Session) : List Line :=
  match c.phase with
  | .connected => (c.source c.atConnect).leftBetween (c.source c.screen)
  | .relaying => c.screen.terminal.pendingRows
  | _ => []

/-- No row that waits is cleared, and there is room for all of them in the scrollback. -/
def hasRoom (charWidth : Char → Nat) (c : Session) (t : Terminal) (callback : Callback) : Bool :=
  (!callback.clears || c.waiting.isEmpty) &&
    decide (c.waiting.length + scrolledOff charWidth t callback ≤ t.mainLimit)

def sentScreen (c : Session) : Bool :=
  c.logicalHistory && !c.atSnapshot.logical.state.inAltScreen

def keepsRows (charWidth : Char → Nat) (c : Session) (callback : Callback) : Bool :=
  match c.phase with
  | .detached => true
  | .connected => c.hasRoom charWidth (c.source c.screen) callback
  | .replaying => scrolledOff charWidth c.screen.terminal callback == 0
  | .relaying => c.hasRoom charWidth c.screen.terminal callback &&
      (!c.sentScreen || scrolledOff charWidth c.screen.terminal callback == 0)

/-- Nothing waits when the snapshot is taken on the alternate screen, which replays nothing. -/
def clean (charWidth : Char → Nat) (c : Session) : Step → Bool
  | .output chunk => Meets (feed? charWidth) (keepsRows charWidth) c chunk
  | .snapshot => c.phase != .connected || !(c.source c.screen).state.inAltScreen || c.waiting.isEmpty
  | _ => true

/-! ### One terminal -/

theorem scrolls_callback {charWidth : Char → Nat} {t t' : Terminal} (h : t.InOrder)
    {callback : Callback} (hstep : t.step? charWidth (.callback callback) = some t') :
    ∃ rows evicted, Terminal.Scrolls callback.clears t t' rows evicted ∧
      scrolledOff charWidth t callback = rows.length := by
  obtain ⟨d, hd, hs⟩ := h
  obtain ⟨d', hd', hs', -⟩ := hs.of_step? hd hstep
  cases hd'
  obtain ⟨rows, evicted, hscrolls⟩ :=
    Terminal.scrolls_of_effect hs hs' (Display.effect_callback charWidth hd callback)
  refine ⟨rows, evicted, hscrolls, ?_⟩
  have hcallback : t.callback? charWidth callback = some t' := hstep
  rw [scrolledOff, hcallback, Option.map_some, Option.getD_some, hscrolls.leftBetween]

/-- The rows that left since `t₀` are the end of the scrollback. -/
structure Tracks (t₀ t : Terminal) : Prop where
  captured : t₀.grid.captured <+: t.grid.captured
  history : ∃ older, older <:+ t₀.history ∧ t.history = older ++ t₀.leftBetween t

variable {t₀ t t' : Terminal} {cleared : Bool} {rows : List Line} {evicted : Nat}

theorem Tracks.refl (t : Terminal) : Tracks t t where
  captured := List.prefix_rfl
  history := ⟨t.history, List.suffix_rfl, by simp [Terminal.leftBetween]⟩

theorem leftBetween_scrolls (h : t₀.grid.captured <+: t.grid.captured)
    (hs : Terminal.Scrolls cleared t t' rows evicted) :
    t₀.grid.captured <+: t'.grid.captured ∧ t₀.leftBetween t' = t₀.leftBetween t ++ rows := by
  have hcaptured : t.grid.captured <+: t'.grid.captured := ⟨rows, hs.captured.symm⟩
  refine ⟨h.trans hcaptured, ?_⟩
  rw [Terminal.leftBetween_trans h hcaptured, hs.leftBetween]

theorem Tracks.scrolls (h : Tracks t₀ t) (hs : Terminal.Scrolls cleared t t' rows evicted)
    (hclears : cleared = true → t₀.leftBetween t = [])
    (hroom : (t₀.leftBetween t).length + rows.length ≤ t.mainLimit) : Tracks t₀ t' := by
  obtain ⟨hcaptured, hleft⟩ := leftBetween_scrolls h.captured hs
  refine ⟨hcaptured, ?_⟩
  obtain ⟨older, hsuffix, hhistory⟩ := h.history
  have hevicted := hs.evicted_le
  have hhist := hs.history
  cases cleared with
  | false =>
      -- only rows of before the connect are evicted
      simp only [Bool.false_eq_true, if_false, hhistory, List.length_append] at hevicted hhist
      refine ⟨older.drop evicted, (List.drop_suffix _ _).trans hsuffix, ?_⟩
      rw [hhist, hleft, List.append_assoc, List.drop_append_of_le_length (by omega)]
  | true =>
      rw [hclears rfl] at hleft
      simp only [if_true, List.length_nil, List.nil_append] at hevicted hhist
      refine ⟨[], List.nil_suffix, ?_⟩
      rw [hhist, hleft, show evicted = 0 by omega]
      rfl

theorem pendingRows_scrolls (hpending : t.grid.pendingStart ≤ t.history.length)
    (hs : Terminal.Scrolls cleared t t' rows evicted)
    (hclears : cleared = true → t.history.drop t.grid.pendingStart = [])
    (hroom : (t.history.drop t.grid.pendingStart).length + rows.length ≤ t.mainLimit) :
    t'.history.drop t'.grid.pendingStart = t.history.drop t.grid.pendingStart ++ rows := by
  have hevicted := hs.evicted_le
  have hhist := hs.history
  have hstart := hs.pending
  rw [List.length_drop] at hroom
  cases cleared with
  | false =>
      simp only [Bool.false_eq_true, if_false] at hevicted hhist hstart
      rw [hhist, hstart, List.drop_drop, show evicted + (t.grid.pendingStart - evicted) =
        t.grid.pendingStart by omega, List.drop_append_of_le_length hpending]
  | true =>
      simp only [if_true, List.length_nil, List.nil_append] at hevicted hhist hstart
      rw [hclears rfl, hhist, hstart, show evicted = 0 by omega]
      rfl

/-! ### The session -/

/-- The replayed history ends with the rows that left between the connect and the snapshot. -/
def Replayed (c : Session) : Prop :=
  ∃ older, c.sent.flatMap ServerMsg.replayed = older ++ c.leftBefore ∧
    older <:+ (c.source c.atConnect).history

structure Inv (c : Session) : Prop where
  inOrder : c.screen.InOrder
  client : c.hasClient = decide (c.phase ≠ .detached)
  connected : c.phase = .connected →
    c.sent = [] ∧ Tracks (c.source c.atConnect) (c.source c.screen)
  replaying : c.phase = .replaying → c.Replayed ∧ c.sent.flatMap ServerMsg.injected = [] ∧
    c.screen.terminal.grid.captured = c.atSnapshot.terminal.grid.captured
  relaying : c.phase = .relaying → c.Replayed ∧
    c.atSnapshot.terminal.grid.captured <+: c.screen.terminal.grid.captured ∧
    c.sent.flatMap ServerMsg.injected ++ c.screen.terminal.pendingRows = c.leftAfter ∧
    (c.sentScreen = true → c.leftAfter = [])

theorem Inv.exactlyOnce {c : Session} (h : c.Inv) : c.ExactlyOnce := by
  intro hphase
  obtain ⟨hreplayed, -, hinjected, hscreen⟩ := h.relaying hphase
  refine ⟨hreplayed, hinjected, fun hlogical halt => hscreen ?_⟩
  rw [sentScreen, hlogical, halt]
  rfl

/-- The terminal of the history that is replayed, after a step of both. -/
theorem source_step? {charWidth : Char → Nat} (c : Session) {s s' : Screen} {e : Event}
    (hstep : s.step? charWidth e = some s') :
    (c.source s).step? charWidth e = some (c.source s') := by
  obtain ⟨hterminal, hlogical⟩ := Screen.step?_terminals hstep
  unfold source
  split_ifs
  · exact hlogical
  · exact hterminal

theorem source_inOrder (c : Session) {s : Screen} (h : s.InOrder) : (c.source s).InOrder := by
  unfold source
  split_ifs
  · exact h.logical
  · exact h.terminal

theorem pendingRows_inOrder (h : t.InOrder) :
    t.pendingRows = t.history.drop t.grid.pendingStart ∧
      t.grid.pendingStart ≤ t.history.length := by
  obtain ⟨d, hd, hs⟩ := h
  refine ⟨Terminal.pendingRows_eq hs, ?_⟩
  rw [Terminal.history_eq hs, show t.grid.pendingStart = d.sheet.pendingStart from
    congrArg Frame.pendingStart hs.frame]
  exact hd.pending

theorem step?_inOrder {charWidth : Char → Nat} {s s' : Screen} (h : s.InOrder) {e : Event}
    (hstep : s.step? charWidth e = some s') : s'.InOrder := by
  obtain ⟨hterminal, -⟩ := Screen.step?_terminals hstep
  exact (h.step? charWidth (Terminal.ok_of_step? hterminal)).of_eq hstep

theorem Inv.feed? {charWidth : Char → Nat} {c c' : Session} (h : c.Inv) {callback : Callback}
    (hkeeps : c.keepsRows charWidth callback = true) (hfeed : c.feed? charWidth callback = some c') :
    c'.Inv := by
  obtain ⟨s', hstep, hfeed⟩ := Option.bind_eq_some_iff.mp hfeed
  cases hfeed
  obtain ⟨hterminal, -⟩ := Screen.step?_terminals hstep
  obtain ⟨rows, evicted, hscrolls, hoff⟩ := scrolls_callback h.inOrder.terminal hterminal
  obtain ⟨hpending, hstart⟩ := pendingRows_inOrder h.inOrder.terminal
  have hafter := step?_inOrder h.inOrder hstep
  refine ⟨hafter, h.client, fun hphase => ?_, fun hphase => ?_, fun hphase => ?_⟩
  · obtain ⟨hsent, htracks⟩ := h.connected hphase
    obtain ⟨rows, evicted, hscrolls, hoff⟩ :=
      scrolls_callback (c.source_inOrder h.inOrder) (c.source_step? hstep)
    have hwaiting : c.waiting = (c.source c.atConnect).leftBetween (c.source c.screen) := by
      rw [waiting, hphase]
    rw [keepsRows, hphase] at hkeeps
    simp only [hasRoom, hwaiting, hoff, Bool.and_eq_true, Bool.or_eq_true, Bool.not_eq_true',
      List.isEmpty_iff, decide_eq_true_eq] at hkeeps
    refine ⟨hsent, htracks.scrolls hscrolls (fun hclears => ?_) hkeeps.2⟩
    exact hkeeps.1.resolve_left (by simp [hclears])
  · obtain ⟨hreplayed, hinjected, hcaptured⟩ := h.replaying hphase
    rw [keepsRows, hphase] at hkeeps
    simp only [hoff, beq_iff_eq, List.length_eq_zero_iff] at hkeeps
    refine ⟨hreplayed, hinjected, ?_⟩
    rw [hscrolls.captured, hkeeps, List.append_nil]
    exact hcaptured
  · obtain ⟨hreplayed, hcaptured, hinjected, hscreen⟩ := h.relaying hphase
    have hwaiting : c.waiting = c.screen.terminal.pendingRows := by
      rw [waiting, hphase]
    rw [keepsRows, hphase] at hkeeps
    simp only [hasRoom, hwaiting, hoff, Bool.and_eq_true, Bool.or_eq_true, Bool.not_eq_true',
      List.isEmpty_iff, decide_eq_true_eq, beq_iff_eq, List.length_eq_zero_iff] at hkeeps
    obtain ⟨⟨hclears, hroom⟩, hlogical⟩ := hkeeps
    rw [hpending] at hclears hroom
    obtain ⟨hcaptured', hleft⟩ := leftBetween_scrolls hcaptured hscrolls
    have hrows := pendingRows_scrolls hstart hscrolls
      (fun hcleared => hclears.resolve_left (by simp [hcleared])) hroom
    refine ⟨hreplayed, hcaptured', ?_, fun hsent => ?_⟩
    · rw [(pendingRows_inOrder hafter.terminal).1, hrows, ← hpending, ← List.append_assoc, hinjected]
      exact hleft.symm
    · have hsent' : c.sentScreen = true := hsent
      have hnone : rows = [] := hlogical.resolve_left (by simp [hsent'])
      show c.atSnapshot.terminal.leftBetween s'.terminal = []
      rw [hleft, hnone, List.append_nil]
      exact hscreen hsent

/-! ### The other steps -/

theorem InOrder.queues (h : t.InOrder) (pendingResponses pendingPassthrough queuedNotifications :
    List Bytes) : Terminal.InOrder { t with
      state.pendingResponses := pendingResponses
      state.pendingPassthrough := pendingPassthrough
      state.queuedNotifications := queuedNotifications } := by
  obtain ⟨d, hd, hs⟩ := h
  have heffect := Display.effect_withState hd (f := fun s => { s with
    pendingResponses, pendingPassthrough, queuedNotifications }) fun s => ⟨rfl, rfl, rfl, rfl, rfl⟩
  exact ⟨_, heffect.ok, hs.grid, congrArg (fun s : ScreenState SavedSheet => { s with
    pendingResponses, pendingPassthrough, queuedNotifications }) hs.state⟩

theorem InOrder.take (h : t.InOrder) : t.take.InOrder := by
  obtain ⟨d, hd, hs⟩ := h
  obtain ⟨d', hd', hs', -⟩ := Terminal.InOrderUnder.take ⟨d, hd, hs, rfl⟩
  exact ⟨d', hd', hs'⟩

theorem Tracks.of_grid (h : Tracks t₀ t) (hgrid : t'.grid = t.grid) : Tracks t₀ t' := by
  have hleft : t₀.leftBetween t' = t₀.leftBetween t := by
    rw [Terminal.leftBetween, hgrid, Terminal.leftBetween]
  have hhistory : t'.history = t.history := by
    rw [Terminal.history, hgrid, Terminal.history]
  refine ⟨?_, ?_⟩
  · rw [hgrid]
    exact h.captured
  · rw [hleft, hhistory]
    exact h.history

/-- What is queued beside the grids has no part in it. -/
theorem Inv.of_grid {c : Session} (h : c.Inv) {s : Screen} (hin : s.InOrder)
    (hterminal : s.terminal.grid = c.screen.terminal.grid)
    (hlogical : s.logical.grid = c.screen.logical.grid) : Inv { c with screen := s } := by
  have hsource : (c.source s).grid = (c.source c.screen).grid := by
    unfold source
    split_ifs
    · exact hlogical
    · exact hterminal
  have hpending : s.terminal.pendingRows = c.screen.terminal.pendingRows := by
    rw [Terminal.pendingRows, hterminal, Terminal.pendingRows]
  have hleft : Session.leftAfter { c with screen := s } = c.leftAfter := by
    show c.atSnapshot.terminal.leftBetween s.terminal = _
    rw [Terminal.leftBetween, hterminal]
    rfl
  refine ⟨hin, h.client, fun hphase => ?_, fun hphase => ?_, fun hphase => ?_⟩
  · obtain ⟨hsent, htracks⟩ := h.connected hphase
    exact ⟨hsent, htracks.of_grid hsource⟩
  · obtain ⟨hreplayed, hinjected, hcaptured⟩ := h.replaying hphase
    exact ⟨hreplayed, hinjected, (congrArg (·.captured) hterminal).trans hcaptured⟩
  · obtain ⟨hreplayed, hcaptured, hinjected, hscreen⟩ := h.relaying hphase
    refine ⟨hreplayed, ?_, ?_, ?_⟩
    · show _ <+: s.terminal.grid.captured
      rw [hterminal]
      exact hcaptured
    · rw [hleft]
      show _ ++ s.terminal.pendingRows = _
      rw [hpending]
      exact hinjected
    · rw [hleft]
      exact hscreen

theorem takeResponses_inOrder {s : Screen} (h : s.InOrder) : (takeResponses s).InOrder :=
  ⟨InOrder.queues h.terminal [] s.terminal.state.pendingPassthrough
    s.terminal.state.queuedNotifications, h.logical⟩

theorem discard_inOrder {s : Screen} (h : s.InOrder) : (discard s).InOrder :=
  ⟨InOrder.queues (InOrder.take h.terminal) s.terminal.state.pendingResponses []
    s.terminal.state.queuedNotifications, h.logical⟩

/-- The reader's turn: the callbacks of the chunk, and what is taken behind them. -/
theorem Inv.output? {charWidth : Char → Nat} {c c' : Session} (h : c.Inv) {chunk : List Callback}
    (hmeets : Meets (Session.feed? charWidth) (keepsRows charWidth) c chunk = true)
    (houtput : c.output? charWidth chunk = some c') : c'.Inv := by
  obtain ⟨c₁, hchunk, houtput⟩ := Option.bind_eq_some_iff.mp houtput
  cases houtput
  have h₁ : c₁.Inv := Meets.invariant (fun h hkeeps hfeed => h.feed? hkeeps hfeed) h hmeets hchunk
  have h₂ := h₁.of_grid (takeResponses_inOrder h₁.inOrder) rfl rfl
  split_ifs with hclient
  · exact h₂
  · have hdetached : c₁.phase = .detached := by
      simpa [h₁.client] using hclient
    refine ⟨discard_inOrder h₂.inOrder, h₁.client, fun hphase => ?_, fun hphase => ?_,
      fun hphase => ?_⟩
    all_goals exact absurd (hdetached.symm.trans hphase) (by decide)

/-! ### The snapshot -/

theorem replayed_historyMsgs (rows : List Line) (styles : StyleTable) :
    (historyMsgs rows styles).flatMap ServerMsg.replayed = rows := by
  rw [historyMsgs, List.flatMap_map]
  exact List.flatMap_id.trans ((flatten_historyFrames _ _ _ _).trans (List.nil_append _))

theorem injected_historyMsgs (rows : List Line) (styles : StyleTable) :
    (historyMsgs rows styles).flatMap ServerMsg.injected = [] := by
  rw [historyMsgs, List.flatMap_map]
  exact List.flatMap_eq_nil_iff.mpr fun _ _ => rfl

theorem mem_omitBlankLines {chunk : LogicalHistoryChunk × Bool} (hhistory : chunk.2 = true)
    (turns : Nat) {chunks : List (LogicalHistoryChunk × Bool)} (hmem : chunk ∈ chunks) :
    chunk ∈ Grid.omitBlankLines turns chunks := by
  induction turns generalizing chunks with
  | zero => exact hmem
  | succ turns ih =>
      unfold Grid.omitBlankLines
      split
      · exact hmem
      · dsimp only
        split_ifs with hblank
        · refine ih ?_
          rw [← List.take_append_drop (Grid.lastLineStart chunks) chunks] at hmem
          obtain hmem | hmem := List.mem_append.mp hmem
          · exact hmem
          · have hall := List.all_eq_true.mp hblank.2 chunk hmem
            simp [hhistory] at hall
        · exact hmem

theorem flags_chunksOfRows (styles : StyleTable) (severed : Bool) (rows : List (Row × Bool)) :
    (Grid.chunksOfRows styles severed rows).map Prod.snd = rows.map Prod.snd := by
  induction rows with
  | nil => rfl
  | cons row rows ih =>
      rw [Grid.chunksOfRows, List.map_cons, List.map_cons, ih]
      rfl

theorem history_of_logicalEmission_nil (hmain : t.state.inAltScreen = false)
    (h : t.grid.logicalEmission .attachReplay t.state.inAltScreen = []) : t.history = [] := by
  rw [hmain, Grid.logicalEmission, List.map_eq_nil_iff] at h
  have hnone : ∀ flag ∈ (t.grid.emittedRows .attachReplay false).map Prod.snd, flag = false := by
    rw [← flags_chunksOfRows t.grid.styleTable false]
    intro flag hflag
    obtain ⟨chunk, hchunk, rfl⟩ := List.mem_map.mp hflag
    by_contra hne
    have hmem := mem_omitBlankLines (by simpa using hne)
      (Grid.chunksOfRows t.grid.styleTable false (t.grid.emittedRows .attachReplay false)).length
      hchunk
    rw [Bool.false_and] at h
    rw [h] at hmem
    cases hmem
  rw [Terminal.history, List.map_eq_nil_iff]
  cases hrows : t.grid.scrollbackRows with
  | nil => rfl
  | cons row rows =>
      have hflag := hnone true (by simp [Grid.emittedRows, hrows])
      cases hflag

theorem replayed_initialHistory (logicalHistory : Bool) (s : Screen) :
    (initialHistory logicalHistory s).flatMap ServerMsg.replayed =
      replayedRows logicalHistory s := by
  cases logicalHistory with
  | false => exact replayed_historyMsgs ..
  | true =>
      rw [initialHistory]
      dsimp only
      rw [if_pos rfl]
      split_ifs with hempty
      · have hemission := List.isEmpty_iff.mp hempty
        rw [replayedRows, if_pos rfl]
        split_ifs with halt
        · rfl
        · exact (history_of_logicalEmission_nil (by simpa using halt) hemission).symm
      · simp [ServerMsg.replayed]

theorem injected_initialHistory (logicalHistory : Bool) (s : Screen) :
    (initialHistory logicalHistory s).flatMap ServerMsg.injected = [] := by
  cases logicalHistory with
  | false => exact injected_historyMsgs ..
  | true =>
      rw [initialHistory]
      dsimp only
      rw [if_pos rfl]
      split_ifs <;> rfl

theorem Inv.snapshot {c : Session} (h : c.Inv) (hashRow : Line → UInt64) (hphase : c.phase = .connected)
    (hclean : (c.source c.screen).state.inAltScreen = true → c.waiting = []) :
    (c.snapshot hashRow).Inv := by
  obtain ⟨hsent, htracks⟩ := h.connected hphase
  have hinOrder : (c.snapshot hashRow).screen.InOrder :=
    ⟨InOrder.queues h.inOrder.terminal c.screen.terminal.state.pendingResponses
      c.screen.terminal.state.pendingPassthrough [], h.inOrder.logical⟩
  have hmsgs : (c.snapshot hashRow).sent.flatMap ServerMsg.replayed =
      replayedRows c.logicalHistory c.screen := by
    show (c.sent ++ initialHistory c.logicalHistory c.screen ++ [_]).flatMap _ = _
    rw [hsent, List.nil_append, List.flatMap_append, replayed_initialHistory]
    exact List.append_nil _
  have hinjected : (c.snapshot hashRow).sent.flatMap ServerMsg.injected = [] := by
    show (c.sent ++ initialHistory c.logicalHistory c.screen ++ [_]).flatMap _ = _
    rw [hsent, List.nil_append, List.flatMap_append, injected_initialHistory]
    rfl
  have hwaiting : c.waiting = (c.source c.atConnect).leftBetween (c.source c.screen) := by
    rw [waiting, hphase]
  refine ⟨hinOrder, ?_, fun hphase' => ?_, fun _ => ⟨?_, hinjected, rfl⟩, fun hphase' => ?_⟩
  · rw [show (c.snapshot hashRow).hasClient = c.hasClient from rfl, h.client, hphase]
    rfl
  · cases hphase'
  · rw [Replayed, hmsgs]
    obtain ⟨older, hsuffix, hhistory⟩ := htracks.history
    show ∃ older, (if (c.source c.screen).state.inAltScreen then [] else (c.source c.screen).history) =
      older ++ (c.source c.atConnect).leftBetween (c.source c.screen) ∧
        older <:+ (c.source c.atConnect).history
    split_ifs with halt
    · refine ⟨[], ?_, List.nil_suffix⟩
      rw [← hwaiting, hclean halt]
      rfl
    · exact ⟨older, hhistory, hsuffix⟩
  · cases hphase'

/-! ### The drain and the relay -/

theorem pendingRows_take (t : Terminal) : t.take.pendingRows = [] := by
  rw [Terminal.pendingRows]
  show List.map Row.toLine (List.take (t.grid.scrollbackLen - t.grid.scrollbackLen) _) = []
  rw [Nat.sub_self]
  rfl

/-- What waited at the drain is gone: no row left since the snapshot. -/
theorem Inv.drain {c : Session} (h : c.Inv) (hphase : c.phase = .replaying) :
    Inv { c with screen := discard c.screen, phase := .relaying } := by
  obtain ⟨hreplayed, hinjected, hcaptured⟩ := h.replaying hphase
  have hcaptured' : (discard c.screen).terminal.grid.captured =
      c.atSnapshot.terminal.grid.captured := hcaptured
  have hleft : c.atSnapshot.terminal.leftBetween (discard c.screen).terminal = [] := by
    rw [Terminal.leftBetween, hcaptured', List.drop_length]
  refine ⟨discard_inOrder h.inOrder, ?_, fun hphase' => ?_, fun hphase' => ?_, fun _ =>
    ⟨hreplayed, ?_, ?_, fun _ => hleft⟩⟩
  · exact h.client.trans (by rw [hphase]; rfl)
  · cases hphase'
  · cases hphase'
  · rw [hcaptured']
  · show c.sent.flatMap ServerMsg.injected ++ c.screen.terminal.take.pendingRows =
      c.atSnapshot.terminal.leftBetween (discard c.screen).terminal
    rw [hinjected, pendingRows_take, hleft]
    rfl

theorem renderWithScrollback_ne_nil (hashRow : Line → UInt64) (s : Screen)
    {lines : List (List Sequence)} (hne : lines ≠ []) (cache : RenderCache) :
    (s.renderWithScrollback hashRow lines cache).1 ≠ [] := by
  unfold Screen.renderWithScrollback renderScreenImpl
  simp [renderScrollback, hne]

theorem takeAndRender_ne_nil (hashRow : Line → UInt64) (s : Screen) (cache : RenderCache)
    (hlines : s.takePendingScrollback.1 ≠ []) : (s.takeAndRender hashRow cache).1.1 ≠ [] := by
  simp only [Screen.takeAndRender, List.isEmpty_iff, hlines, if_false]
  exact renderWithScrollback_ne_nil hashRow _ hlines cache

theorem relay_sent (c : Session) (hashRow : Line → UInt64) : ∃ update,
    (c.relay hashRow).sent = c.sent ++ update ∧
      update.flatMap ServerMsg.injected = c.screen.terminal.pendingRows ∧
      update.flatMap ServerMsg.replayed = [] := by
  refine ⟨_, rfl, ?_, ?_⟩
  · split_ifs with hempty
    · -- nothing was sent, so that nothing was there to inject
      have hframe := List.isEmpty_iff.mp hempty.1
      cases hrows : c.screen.terminal.pendingRows with
      | nil => rfl
      | cons row rows =>
          have hlines : c.screen.takePendingScrollback.1 ≠ [] := by
            intro hnil
            have hmap : c.screen.takePendingScrollback.1.length =
                c.screen.terminal.pendingRows.length := by
              simp [Screen.takePendingScrollback, Terminal.pendingRows]
            rw [hnil, hrows] at hmap
            cases hmap
          exact absurd hframe (takeAndRender_ne_nil hashRow c.screen c.cache hlines)
    · exact List.append_nil _
  · split_ifs <;> rfl

theorem Inv.relay {c : Session} (h : c.Inv) (hashRow : Line → UInt64) (hphase : c.phase = .relaying) :
    (c.relay hashRow).Inv := by
  obtain ⟨hreplayed, hcaptured, hinjected, hscreen⟩ := h.relaying hphase
  obtain ⟨update, hsent, hupdate, hreplay⟩ := relay_sent c hashRow
  have hterminal : (c.relay hashRow).screen.terminal.grid = c.screen.terminal.take.grid := rfl
  have hphase' : (c.relay hashRow).phase = .relaying := hphase
  have hinOrder : (c.relay hashRow).screen.InOrder :=
    ⟨InOrder.queues (InOrder.take h.inOrder.terminal) c.screen.terminal.state.pendingResponses [] [],
      h.inOrder.logical⟩
  have hpending : (c.relay hashRow).screen.terminal.pendingRows = [] := pendingRows_take _
  refine ⟨hinOrder, h.client, fun hne => ?_, fun hne => ?_, fun _ => ⟨?_, hcaptured, ?_, hscreen⟩⟩
  · rw [hphase'] at hne
    cases hne
  · rw [hphase'] at hne
    cases hne
  · obtain ⟨older, hrows, hsuffix⟩ := hreplayed
    refine ⟨older, ?_, hsuffix⟩
    rw [hsent, List.flatMap_append, hreplay, List.append_nil]
    exact hrows
  · rw [hsent, hpending, List.flatMap_append, hupdate, List.append_nil]
    exact hinjected

/-! ### Runs -/

theorem Inv.of_detached {c : Session} (hin : c.screen.InOrder) (hclient : c.hasClient = false)
    (hphase : c.phase = .detached) : c.Inv := by
  refine ⟨hin, by rw [hclient, hphase]; rfl, fun hne => ?_, fun hne => ?_, fun hne => ?_⟩
  all_goals
    rw [hphase] at hne
    cases hne

theorem Inv.step? {charWidth : Char → Nat} {hashRow : Line → UInt64} {c c' : Session} (h : c.Inv)
    {step : Step} (hclean : c.clean charWidth step = true)
    (hstep : c.step? charWidth hashRow step = some c') : c'.Inv := by
  cases step with
  | output chunk => exact h.output? hclean hstep
  | resize cols rows =>
      rw [Session.step?] at hstep
      split_ifs at hstep with hphase
      · obtain ⟨s, hs, hstep⟩ := Option.bind_eq_some_iff.mp hstep
        cases hstep
        refine .of_detached (step?_inOrder h.inOrder hs) ?_ hphase
        rw [h.client, hphase]
        rfl
      · cases hstep
        exact h
  | connect logicalHistory =>
      rw [Session.step?] at hstep
      split_ifs at hstep
      · cases hstep
        refine ⟨h.inOrder, rfl, fun _ => ⟨rfl, .refl _⟩, fun hne => ?_, fun hne => ?_⟩
        all_goals cases hne
      · cases hstep
        exact h
  | snapshot =>
      cases hstep
      split_ifs with hphase
      · refine h.snapshot hashRow hphase fun halt => ?_
        simpa [clean, hphase, halt] using hclean
      · exact h
  | drain =>
      cases hstep
      split_ifs with hphase
      · exact h.drain hphase
      · exact h
  | relay =>
      cases hstep
      split_ifs with hphase
      · exact h.relay hashRow hphase
      · exact h
  | refresh =>
      cases hstep
      split_ifs with hphase
      · -- a full frame, and nothing is taken
        obtain ⟨hreplayed, hcaptured, hinjected, hscreen⟩ := h.relaying hphase
        have hsent : (c.refresh hashRow).sent = c.sent ++ [_] := rfl
        have hphase' : (c.refresh hashRow).phase = .relaying := hphase
        refine ⟨h.inOrder, h.client, fun hne => ?_, fun hne => ?_,
          fun _ => ⟨?_, hcaptured, ?_, hscreen⟩⟩
        · rw [hphase'] at hne
          cases hne
        · rw [hphase'] at hne
          cases hne
        · obtain ⟨older, hrows, hsuffix⟩ := hreplayed
          refine ⟨older, ?_, hsuffix⟩
          rw [hsent, List.flatMap_append]
          exact (List.append_nil _).trans hrows
        · rw [hsent, List.flatMap_append]
          exact (congrArg (· ++ _) (List.append_nil _)).trans hinjected
      · exact h
  | detach =>
      cases hstep
      exact .of_detached h.inOrder rfl rfl

def new (cols rows : UInt16) (scrollbackLimit : Nat) : Session :=
  { screen := .new cols rows scrollbackLimit }

def lineOff (c : Char) : Step := .output [.print c, .execute 0x0A]

/-- A row leaves before the client connects, one before the snapshot, and one is relayed. -/
def cleanAttach : List Step :=
  [lineOff 'a', .connect false, lineOff 'b', .snapshot, .output [.print 'c'], .drain,
    .output [.execute 0x0A], .relay]

def lateAttach : List Step := [.connect false, .snapshot, lineOff 'a', .drain, .relay]

end Session

end QuorumDispatch.Server
