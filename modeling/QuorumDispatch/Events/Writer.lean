import Mathlib.Data.List.Perm.Basic
import Mathlib.Data.List.TakeWhile
import QuorumDispatch.Events.Record
import QuorumDispatch.Lib.Runs

/-!
One writer of the event stream. Threads test the closed flag and then take the lock, under which a
record gets its number, is counted against the cap and is appended. Whatever the interleaving, the file
has the shape that its readers expect, but for one thing: a thread that tested the flag in time may
append behind the record that closes the session.
-/

namespace QuorumDispatch.Events

open Lib

set_option linter.dupNamespace false

/-! ### The locked section -/

structure Inner where
  file : List DaemonEvent := []
  seq : Nat := 0
  bytesWritten : Nat := 0
  truncated : Bool := false
  maxBytes : UInt64

namespace Inner

def fileLen (g : Inner) : Nat := (g.file.flatMap DaemonEvent.line).length

def append (g : Inner) (ev : DaemonEvent) : Inner :=
  { g with file := g.file ++ [ev], bytesWritten := g.bytesWritten + ev.lineLen }

def limit (g : Inner) : Nat := g.maxBytes.toNat + terminalReserve

def appendReserved (g : Inner) (ev : DaemonEvent) : Inner :=
  if g.bytesWritten + ev.lineLen ≤ g.limit then g.append ev else g

/-- `emit`, once it has the lock. The clock is read for the record and for a marker. -/
def emitLocked (session : SessionName) (epoch tsMs markerTsMs : UInt64) (build : EventMeta → DaemonEvent)
    (terminal : Bool) (g : Inner) : Inner :=
  let g := { g with seq := g.seq + 1 }
  let ev := build { session, epoch, seq := g.seq, tsMs }
  if g.truncated then
    if terminal then g.appendReserved ev else g
  else if g.maxBytes.toNat < g.bytesWritten + ev.lineLen then
    -- the marker takes this number, and the record the next one
    let marker := DaemonEvent.eventsTruncated { session, epoch, seq := ev.seq, tsMs := markerTsMs } g.maxBytes
    let g := { g with truncated := true }.appendReserved marker
    let g := { g with seq := g.seq + 1 }
    if terminal then g.appendReserved (ev.setSeq g.seq) else g
  else g.append ev

end Inner

/-! ### The writer and its threads -/

structure EventWriter where
  session : SessionName
  epoch : UInt64
  closed : Bool := false
  inner : Inner

/-- The writer that `open` returns, with the first record. -/
def EventWriter.opened (session : SessionName) (epoch maxBytes : UInt64) (pid : UInt32)
    (pidStartMs : Option UInt64) (bootId : Option String) (tsMs markerTsMs : UInt64) : EventWriter where
  session
  epoch
  inner := Inner.emitLocked session epoch tsMs markerTsMs
    (.sessionOpened · pid schemaVersion pidStartMs bootId) false { maxBytes }

def openingRecord (session : SessionName) (epoch : UInt64) (pid : UInt32) (pidStartMs : Option UInt64)
    (bootId : Option String) (tsMs : UInt64) : DaemonEvent :=
  .sessionOpened { session, epoch, seq := 1, tsMs } pid schemaVersion pidStartMs bootId

inductive Call where
  | bytesWritten (bytes : UInt64) (contentSha256 : String) (contentLen : UInt64)
  | writeFailed (errno : Option Int32) (error contentSha256 : String) (contentLen : UInt64)
  | closed (reason : CloseReason)
  | heartbeat

def Call.build : Call → EventMeta → DaemonEvent
  | bytesWritten bytes sha len => (.ptyBytesWritten · bytes sha len)
  | writeFailed errno error sha len => (.ptyWriteFailed · errno error sha len)
  | closed reason => (.sessionClosed · reason)
  | heartbeat => .heartbeat

def Call.terminal : Call → Bool
  | closed _ => true
  | _ => false

/-- The writer, and the calls that have passed the flag and not yet got the lock. -/
structure Threads where
  writer : EventWriter
  pending : List Call := []

namespace Threads

/-- A call up to the lock. The first close sets the flag, which the others only test. -/
def call (t : Threads) : Call → Threads
  | .closed reason =>
      if t.writer.closed then t
      else { writer := { t.writer with closed := true }, pending := t.pending ++ [.closed reason] }
  | c => if t.writer.closed then t else { t with pending := t.pending ++ [c] }

def lock (t : Threads) (i : Nat) (tsMs markerTsMs : UInt64) : Threads :=
  match t.pending[i]? with
  | some c =>
      { writer := { t.writer with
          inner := t.writer.inner.emitLocked t.writer.session t.writer.epoch tsMs markerTsMs c.build
            c.terminal }
        pending := t.pending.eraseIdx i }
  | none => t

inductive Act where
  | call (c : Call)
  | lock (i : Nat) (tsMs markerTsMs : UInt64)

def step (t : Threads) : Act → Threads
  | .call c => t.call c
  | .lock i tsMs markerTsMs => t.lock i tsMs markerTsMs

def file (t : Threads) : List DaemonEvent := t.writer.inner.file

end Threads

/-! ### The shape of a file -/

def aheadOfMarker (file : List DaemonEvent) : List DaemonEvent := file.takeWhile fun e => !e.isTruncated

/-- What readers of a file may expect, under a cap and a first record. -/
structure WellFormed (maxBytes : UInt64) (opening : DaemonEvent) (file : List DaemonEvent) : Prop where
  increasing : (file.map DaemonEvent.seq).Pairwise (· < ·)
  gapless : (aheadOfMarker file).map DaemonEvent.seq = List.range' 1 (aheadOfMarker file).length
  first : opening.lineLen ≤ maxBytes.toNat → file.head? = some opening
  oneMarker : (file.filter DaemonEvent.isTruncated).length ≤ 1
  behindMarker : ∀ xs m ys, file = xs ++ m :: ys → m.isTruncated = true →
    ∀ e ∈ ys, e.isClosed = true
  oneClosed : (file.filter DaemonEvent.isClosed).length ≤ 1
  size : (file.flatMap DaemonEvent.line).length ≤ maxBytes.toNat + terminalReserve

def ClosedLast (file : List DaemonEvent) : Prop :=
  ∀ xs e ys, file = xs ++ e :: ys → e.isClosed = true → ys = []

/-! ### The invariant of the locked section -/

structure Builds (build : EventMeta → DaemonEvent) (terminal : Bool) : Prop where
  seq : ∀ m, (build m).seq = m.seq
  truncated : ∀ m, (build m).isTruncated = false
  closed : ∀ m, (build m).isClosed = terminal

theorem Call.builds (c : Call) : Builds c.build c.terminal := by
  cases c <;> exact ⟨fun _ => rfl, fun _ => rfl, fun _ => rfl⟩

namespace Inner

structure Sound (g : Inner) : Prop where
  bytes : g.bytesWritten = g.fileLen
  size : g.bytesWritten ≤ if g.truncated then g.limit else g.maxBytes.toNat
  bound : ∀ e ∈ g.file, e.seq ≤ g.seq
  increasing : (g.file.map DaemonEvent.seq).Pairwise (· < ·)
  admits : g.truncated = false → (∀ e ∈ g.file, e.isTruncated = false) ∧
    g.file.map DaemonEvent.seq = List.range' 1 g.seq
  shut : g.truncated = true → ∃ xs m ys, g.file = xs ++ m :: ys ∧ m.isTruncated = true ∧
    (∀ e ∈ xs, e.isTruncated = false) ∧ (∀ e ∈ ys, e.isClosed = true) ∧
      xs.map DaemonEvent.seq = List.range' 1 xs.length

variable {g : Inner} {ev : DaemonEvent} {session : SessionName} {epoch tsMs markerTsMs : UInt64}
  {build : EventMeta → DaemonEvent} {terminal : Bool}

theorem sound_new (maxBytes : UInt64) : Sound { maxBytes } where
  bytes := rfl
  size := Nat.zero_le _
  bound _ h := nomatch h
  increasing := List.Pairwise.nil
  admits _ := ⟨fun _ h => (nomatch h), rfl⟩
  shut h := nomatch h

theorem fileLen_append : (g.append ev).fileLen = g.fileLen + ev.lineLen := by
  unfold fileLen append
  rw [List.flatMap_append, List.length_append, List.flatMap_singleton]
  rfl

theorem increasing_snoc {file : List DaemonEvent} (h : (file.map DaemonEvent.seq).Pairwise (· < ·))
    (hlt : ∀ e ∈ file, e.seq < ev.seq) : ((file ++ [ev]).map DaemonEvent.seq).Pairwise (· < ·) := by
  rw [List.map_append, List.pairwise_append]
  refine ⟨h, List.pairwise_singleton _ _, fun a ha b hb => ?_⟩
  obtain ⟨e, he, rfl⟩ := List.mem_map.mp ha
  obtain rfl := List.mem_singleton.mp hb
  exact hlt e he

theorem Sound.skip (h : g.Sound) (htrunc : g.truncated = true) : Sound { g with seq := g.seq + 1 } where
  bytes := h.bytes
  size := h.size
  bound e he := (h.bound e he).trans (Nat.le_succ _)
  increasing := h.increasing
  admits hopen := absurd (htrunc.symm.trans hopen) (by decide)
  shut := h.shut

/-- The last number goes to a record that closes the session. -/
theorem Sound.appendReserved (h : g.Sound) (htrunc : g.truncated = true) (hclosed : ev.isClosed = true)
    (hseq : ev.seq = g.seq) (hlt : ∀ e ∈ g.file, e.seq < g.seq) : (g.appendReserved ev).Sound := by
  unfold Inner.appendReserved
  split_ifs with hfits
  · refine ⟨?_, ?_, ?_, ?_, ?_, ?_⟩
    · rw [fileLen_append, ← h.bytes]
      rfl
    · change g.bytesWritten + ev.lineLen ≤ if g.truncated then g.limit else _
      rw [htrunc]
      exact hfits
    · intro e he
      rcases List.mem_append.mp he with hold | hnew
      · exact h.bound e hold
      · obtain rfl := List.mem_singleton.mp hnew
        exact hseq.le
    · exact increasing_snoc h.increasing fun e he => hseq ▸ hlt e he
    · exact fun hopen => absurd (htrunc.symm.trans hopen) (by decide)
    · intro _
      obtain ⟨xs, m, ys, hfile, hm, hxs, hys, hgapless⟩ := h.shut htrunc
      refine ⟨xs, m, ys ++ [ev], ?_, hm, hxs, ?_, hgapless⟩
      · change g.file ++ [ev] = _
        rw [hfile, List.append_assoc, List.cons_append]
      · intro e he
        rcases List.mem_append.mp he with hold | hnew
        · exact hys e hold
        · obtain rfl := List.mem_singleton.mp hnew
          exact hclosed
  · exact h

theorem length_le_fileLen (g : Inner) : g.file.length ≤ g.fileLen := by
  unfold fileLen
  induction g.file with
  | nil => exact Nat.zero_le _
  | cons e file ih =>
      have hpos := e.lineLen_pos
      unfold DaemonEvent.lineLen at hpos
      rw [List.flatMap_cons, List.length_append, List.length_cons]
      omega

theorem Sound.seq_lt (h : g.Sound) (hopen : g.truncated = false) : g.seq < 2 ^ 64 := by
  obtain ⟨-, hseq⟩ := h.admits hopen
  have hlen := congrArg List.length hseq
  rw [List.length_map, List.length_range'] at hlen
  have hle := length_le_fileLen g
  have hsize := h.size
  rw [hopen, h.bytes] at hsize
  have hcap := g.maxBytes.toNat_lt
  simp only [Bool.false_eq_true, if_false] at hsize
  omega

theorem Sound.marker_fits (h : g.Sound) (hopen : g.truncated = false) {m : EventMeta}
    (hm : m.seq = g.seq + 1) :
    g.bytesWritten + (DaemonEvent.eventsTruncated m g.maxBytes).lineLen ≤ g.limit := by
  have hsize := h.size
  rw [hopen] at hsize
  have hmarker : (DaemonEvent.eventsTruncated m g.maxBytes).lineLen ≤ terminalReserve := by
    apply lineLen_truncated_le
    have hlt := h.seq_lt hopen
    omega
  exact Nat.add_le_add hsize hmarker

/-- The marker takes the number of the record that crosses the cap. -/
def marked (g : Inner) (m : EventMeta) : Inner :=
  { g with seq := g.seq + 1, truncated := true }.appendReserved (.eventsTruncated m g.maxBytes)

theorem Sound.marked_eq (h : g.Sound) (hopen : g.truncated = false) {m : EventMeta}
    (hm : m.seq = g.seq + 1) :
    g.marked m =
      { g with seq := g.seq + 1, truncated := true }.append (.eventsTruncated m g.maxBytes) := by
  unfold marked Inner.appendReserved
  rw [if_pos]
  exact h.marker_fits hopen hm

/-- The record that crosses the cap is preceded by the marker. -/
theorem Sound.marked (h : g.Sound) (hopen : g.truncated = false) {m : EventMeta}
    (hm : m.seq = g.seq + 1) : (g.marked m).Sound ∧ (g.marked m).truncated = true := by
  obtain ⟨hnone, hseq⟩ := h.admits hopen
  have hlen := congrArg List.length hseq
  rw [List.length_map, List.length_range'] at hlen
  rw [h.marked_eq hopen hm]
  refine ⟨⟨?_, h.marker_fits hopen hm, ?_, ?_, fun h => (nomatch h), ?_⟩, rfl⟩
  · rw [fileLen_append]
    exact congrArg (· + _) h.bytes
  · intro e he
    rcases List.mem_append.mp he with hold | hnew
    · exact (h.bound e hold).trans (Nat.le_succ _)
    · obtain rfl := List.mem_singleton.mp hnew
      exact hm.le
  · refine increasing_snoc h.increasing fun e he => ?_
    exact (Nat.lt_succ_of_le (h.bound e he)).trans_le hm.ge
  · intro _
    refine ⟨g.file, _, [], rfl, rfl, hnone, fun _ h => (nomatch h), ?_⟩
    rw [hseq, hlen]

theorem Sound.append (h : g.Sound) (hopen : g.truncated = false) (hmarker : ev.isTruncated = false)
    (hseq : ev.seq = g.seq + 1) (hfits : g.bytesWritten + ev.lineLen ≤ g.maxBytes.toNat) :
    Sound ({ g with seq := g.seq + 1 }.append ev) := by
  obtain ⟨hnone, hrange⟩ := h.admits hopen
  refine ⟨?_, ?_, ?_, ?_, ?_, ?_⟩
  · rw [fileLen_append]
    exact congrArg (· + _) h.bytes
  · change g.bytesWritten + ev.lineLen ≤ if g.truncated then _ else g.maxBytes.toNat
    rw [hopen]
    exact hfits
  · intro e he
    rcases List.mem_append.mp he with hold | hnew
    · exact (h.bound e hold).trans (Nat.le_succ _)
    · obtain rfl := List.mem_singleton.mp hnew
      exact hseq.le
  · refine increasing_snoc h.increasing fun e he => ?_
    exact (Nat.lt_succ_of_le (h.bound e he)).trans_le hseq.ge
  · intro _
    refine ⟨fun e he => ?_, ?_⟩
    · rcases List.mem_append.mp he with hold | hnew
      · exact hnone e hold
      · obtain rfl := List.mem_singleton.mp hnew
        exact hmarker
    · change (g.file ++ [ev]).map DaemonEvent.seq = List.range' 1 (g.seq + 1)
      rw [List.map_append, hrange, List.range'_1_concat, List.map_singleton, hseq, Nat.add_comm 1]
  · exact fun h => absurd (hopen.symm.trans h) (by decide)

/-- Behind the marker the record takes the next number, and only a close is written. -/
def rebuilt (g : Inner) (ev : DaemonEvent) (terminal : Bool) : Inner :=
  if terminal then { g with seq := g.seq + 1 }.appendReserved (ev.setSeq (g.seq + 1))
  else { g with seq := g.seq + 1 }

theorem Sound.rebuilt (h : g.Sound) (htrunc : g.truncated = true) (hclosed : ev.isClosed = terminal) :
    (g.rebuilt ev terminal).Sound := by
  unfold Inner.rebuilt
  split_ifs with hterminal
  · refine (h.skip htrunc).appendReserved htrunc ?_ (DaemonEvent.seq_setSeq _ _) fun e he => ?_
    · rw [DaemonEvent.isClosed_setSeq, hclosed, hterminal]
    · exact Nat.lt_succ_of_le (h.bound e he)
  · exact h.skip htrunc

theorem emitLocked_eq (g : Inner) : g.emitLocked session epoch tsMs markerTsMs build terminal =
    let ev := build { session, epoch, seq := g.seq + 1, tsMs }
    if g.truncated then
      if terminal then { g with seq := g.seq + 1 }.appendReserved ev else { g with seq := g.seq + 1 }
    else if g.maxBytes.toNat < g.bytesWritten + ev.lineLen then
      (g.marked { session, epoch, seq := ev.seq, tsMs := markerTsMs }).rebuilt ev terminal
    else { g with seq := g.seq + 1 }.append ev := rfl

theorem Sound.emitLocked (h : g.Sound) (hbuild : Builds build terminal) :
    (g.emitLocked session epoch tsMs markerTsMs build terminal).Sound := by
  have hseq := hbuild.seq { session, epoch, seq := g.seq + 1, tsMs }
  have hmarker := hbuild.truncated { session, epoch, seq := g.seq + 1, tsMs }
  have hclosed := hbuild.closed { session, epoch, seq := g.seq + 1, tsMs }
  rw [emitLocked_eq]
  dsimp only
  generalize build { session, epoch, seq := g.seq + 1, tsMs } = ev at *
  split_ifs with htrunc hterminal hcross
  · refine (h.skip htrunc).appendReserved htrunc (hclosed.trans hterminal) hseq fun e he => ?_
    exact Nat.lt_succ_of_le (h.bound e he)
  · exact h.skip htrunc
  · obtain ⟨hmarked, hshut⟩ := h.marked (m := { session, epoch, seq := ev.seq, tsMs := markerTsMs })
      (Bool.eq_false_of_not_eq_true htrunc) hseq
    exact hmarked.rebuilt hshut hclosed
  · exact h.append (Bool.eq_false_of_not_eq_true htrunc) hmarker hseq (Nat.not_lt.mp hcross)

/-! What a call appends. -/

theorem closedLast_of_none {file : List DaemonEvent} (h : ∀ e ∈ file, e.isClosed = false) :
    ClosedLast file := by
  rintro xs e ys rfl he
  rw [h e (List.mem_append_right _ List.mem_cons_self)] at he
  cases he

theorem closedLast_snoc {file : List DaemonEvent} (h : ∀ e ∈ file, e.isClosed = false) :
    ClosedLast (file ++ [ev]) := by
  rintro xs e ys hfile he
  rcases List.eq_nil_or_concat ys with rfl | ⟨ys, e', rfl⟩
  · rfl
  · have hsame : file = xs ++ e :: ys := by
      rw [List.concat_eq_append, ← List.cons_append, ← List.append_assoc] at hfile
      exact (List.append_inj' hfile rfl).1
    rw [h e (hsame ▸ List.mem_append_right _ List.mem_cons_self)] at he
    cases he

theorem closedLast_of_append {file rest : List DaemonEvent} (h : ClosedLast (file ++ rest)) :
    ClosedLast file := by
  rintro xs e ys rfl he
  have hnil := h xs e (ys ++ rest) (by rw [List.append_assoc, List.cons_append]) he
  exact (List.append_eq_nil_iff.mp hnil).1

/-- The records that a call appends: a close at most once and last, and none at all for another call
once the file is truncated. -/
structure Appends (file : List DaemonEvent) (truncated terminal : Bool) (rest : List DaemonEvent) : Prop where
  closes : (rest.filter DaemonEvent.isClosed).length ≤ if terminal then 1 else 0
  none : truncated = true → terminal = false → rest = []
  last : (∀ e ∈ file, e.isClosed = false) → ClosedLast (file ++ rest)

theorem appends_nil {file : List DaemonEvent} {truncated : Bool} : Appends file truncated terminal [] where
  closes := Nat.zero_le _
  none _ _ := rfl
  last h := by
    rw [List.append_nil]
    exact closedLast_of_none h

theorem appends_of_none {file rest : List DaemonEvent} (h : ∀ e ∈ rest, e.isClosed = false) :
    Appends file false terminal rest where
  closes := by
    rw [List.filter_eq_nil_iff.mpr fun e he => by simp [h e he]]
    exact Nat.zero_le _
  none h := nomatch h
  last hfile := by
    refine closedLast_of_none fun e he => ?_
    rcases List.mem_append.mp he with hold | hnew
    · exact hfile e hold
    · exact h e hnew

/-- A record that closes the session, behind some that do not. -/
theorem appends_closed {file rest : List DaemonEvent} {truncated : Bool}
    (h : ∀ e ∈ rest, e.isClosed = false) : Appends file truncated true (rest ++ [ev]) where
  closes := by
    rw [List.filter_append, List.filter_eq_nil_iff.mpr fun e he => by simp [h e he]]
    exact List.length_filter_le _ _
  none _ h := nomatch h
  last hfile := by
    rw [← List.append_assoc]
    refine closedLast_snoc fun e he => ?_
    rcases List.mem_append.mp he with hold | hnew
    · exact hfile e hold
    · exact h e hnew

theorem appends_one {file : List DaemonEvent} {truncated : Bool} : Appends file truncated true [ev] := by
  have hnone : ∀ e ∈ ([] : List DaemonEvent), e.isClosed = false := nofun
  exact appends_closed hnone

theorem appendReserved_file (g : Inner) (ev : DaemonEvent) : (g.appendReserved ev).file = g.file ∨
    (g.appendReserved ev).file = g.file ++ [ev] := by
  unfold appendReserved
  split_ifs
  · exact .inr rfl
  · exact .inl rfl

theorem marked_file (m : EventMeta) :
    ∃ rest, (g.marked m).file = g.file ++ rest ∧ ∀ e ∈ rest, e.isClosed = false := by
  unfold marked
  rcases appendReserved_file { g with seq := g.seq + 1, truncated := true }
    (.eventsTruncated m g.maxBytes) with hfile | hfile
  · rw [hfile]
    exact ⟨[], (List.append_nil _).symm, nofun⟩
  · rw [hfile]
    exact ⟨_, rfl, List.forall_mem_singleton.mpr rfl⟩

theorem rebuilt_file (g : Inner) (ev : DaemonEvent) (terminal : Bool) : (g.rebuilt ev terminal).file = g.file ∨
    terminal = true ∧ (g.rebuilt ev terminal).file = g.file ++ [ev.setSeq (g.seq + 1)] := by
  unfold rebuilt
  split_ifs with hterminal
  · rcases appendReserved_file { g with seq := g.seq + 1 } (ev.setSeq (g.seq + 1)) with hsame | hmore
    · exact .inl hsame
    · exact .inr ⟨hterminal, hmore⟩
  · exact .inl rfl

theorem emitLocked_file (hbuild : Builds build terminal) :
    ∃ rest, (g.emitLocked session epoch tsMs markerTsMs build terminal).file = g.file ++ rest ∧
      Appends g.file g.truncated terminal rest := by
  have hclosed := hbuild.closed { session, epoch, seq := g.seq + 1, tsMs }
  rw [emitLocked_eq]
  dsimp only
  generalize build { session, epoch, seq := g.seq + 1, tsMs } = ev at *
  split_ifs with htrunc hterminal hcross
  · subst hterminal
    rcases appendReserved_file { g with seq := g.seq + 1 } ev with hfile | hfile
    · exact ⟨[], hfile.trans (List.append_nil _).symm, appends_nil⟩
    · exact ⟨[ev], hfile, appends_one⟩
  · exact ⟨[], (List.append_nil _).symm, appends_nil⟩
  · -- the marker, and behind it the record if it closes the session
    obtain ⟨rest, hmarked, hrest⟩ := marked_file (g := g) { session, epoch, seq := ev.seq, tsMs := markerTsMs }
    generalize g.marked { session, epoch, seq := ev.seq, tsMs := markerTsMs } = marked at *
    rw [Bool.eq_false_of_not_eq_true htrunc]
    rcases rebuilt_file marked ev terminal with hsame | ⟨rfl, hmore⟩
    · exact ⟨rest, hsame.trans hmarked, appends_of_none hrest⟩
    · refine ⟨rest ++ [ev.setSeq (marked.seq + 1)], ?_, appends_closed hrest⟩
      rw [hmore, hmarked, List.append_assoc]
  · refine ⟨[ev], rfl, ?_⟩
    cases terminal with
    | true => exact appends_one
    | false =>
        rw [Bool.eq_false_of_not_eq_true htrunc]
        exact appends_of_none (List.forall_mem_singleton.mpr hclosed)

theorem length_le_appendReserved (g : Inner) (ev : DaemonEvent) :
    g.file.length ≤ (g.appendReserved ev).file.length := by
  rcases appendReserved_file g ev with hsame | hmore
  · rw [hsame]
  · rw [hmore, List.length_append]
    exact Nat.le_add_right _ _

theorem Sound.marked_grows (h : g.Sound) (hopen : g.truncated = false) {m : EventMeta}
    (hm : m.seq = g.seq + 1) : g.file.length < (g.marked m).file.length := by
  rw [h.marked_eq hopen hm]
  change g.file.length < (g.file ++ [_]).length
  rw [List.length_append]
  exact Nat.lt_succ_self _

theorem length_le_rebuilt (g : Inner) (ev : DaemonEvent) :
    g.file.length ≤ (g.rebuilt ev terminal).file.length := by
  unfold rebuilt
  split_ifs
  · exact length_le_appendReserved { g with seq := g.seq + 1 } _
  · exact le_rfl

theorem Sound.emitLocked_grows (h : g.Sound) (hbuild : Builds build terminal) (hopen : g.truncated = false) :
    g.file.length < (g.emitLocked session epoch tsMs markerTsMs build terminal).file.length := by
  have hseq := hbuild.seq { session, epoch, seq := g.seq + 1, tsMs }
  rw [emitLocked_eq]
  dsimp only
  generalize build { session, epoch, seq := g.seq + 1, tsMs } = ev at *
  rw [hopen, if_neg Bool.false_ne_true]
  split_ifs
  · exact (h.marked_grows (m := { session, epoch, seq := ev.seq, tsMs := markerTsMs }) hopen hseq).trans_le
      (length_le_rebuilt _ ev)
  · change g.file.length < (g.file ++ [ev]).length
    rw [List.length_append]
    exact Nat.lt_succ_self _

theorem appendReserved_maxBytes (g : Inner) (ev : DaemonEvent) :
    (g.appendReserved ev).maxBytes = g.maxBytes := by
  unfold appendReserved
  split_ifs <;> rfl

theorem rebuilt_maxBytes (g : Inner) (ev : DaemonEvent) :
    (g.rebuilt ev terminal).maxBytes = g.maxBytes := by
  unfold rebuilt
  split_ifs
  · exact appendReserved_maxBytes { g with seq := g.seq + 1 } _
  · rfl

theorem emitLocked_maxBytes :
    (g.emitLocked session epoch tsMs markerTsMs build terminal).maxBytes = g.maxBytes := by
  rw [emitLocked_eq]
  dsimp only
  generalize build { session, epoch, seq := g.seq + 1, tsMs } = ev
  split_ifs
  · rw [appendReserved_maxBytes]
  · rfl
  · rw [rebuilt_maxBytes]
    unfold marked
    rw [appendReserved_maxBytes]
  · rfl

end Inner

/-! ### Threads -/

namespace Threads

variable {t : Threads} {maxBytes : UInt64} {opening : DaemonEvent}

structure Sound (maxBytes : UInt64) (opening : DaemonEvent) (t : Threads) : Prop where
  inner : t.writer.inner.Sound
  cap : t.writer.inner.maxBytes = maxBytes
  first : opening.lineLen ≤ maxBytes.toNat → t.file.head? = some opening
  closes : (t.file.filter DaemonEvent.isClosed).length + (t.pending.filter Call.terminal).length ≤
    if t.writer.closed then 1 else 0

theorem Sound.wait (h : t.Sound maxBytes opening) {c : Call} (hc : c.terminal = false) :
    Sound maxBytes opening { t with pending := t.pending ++ [c] } where
  inner := h.inner
  cap := h.cap
  first := h.first
  closes := by
    have hcloses := h.closes
    change (t.file.filter _).length + ((t.pending ++ [c]).filter Call.terminal).length ≤
      if t.writer.closed then 1 else 0
    rw [List.filter_append, List.filter_singleton, hc]
    simpa using hcloses

theorem Sound.close (h : t.Sound maxBytes opening) (hflag : t.writer.closed = false) (reason : CloseReason) :
    Sound maxBytes opening
      { writer := { t.writer with closed := true }, pending := t.pending ++ [.closed reason] } where
  inner := h.inner
  cap := h.cap
  first := h.first
  closes := by
    have hcloses := h.closes
    rw [hflag] at hcloses
    change (t.file.filter _).length + ((t.pending ++ [Call.closed reason]).filter Call.terminal).length ≤ 1
    rw [List.filter_append, List.length_append]
    simp only [Bool.false_eq_true, if_false] at hcloses
    have := List.length_filter_le Call.terminal [Call.closed reason]
    rw [List.length_singleton] at this
    omega

theorem Sound.call (h : t.Sound maxBytes opening) (c : Call) : (t.call c).Sound maxBytes opening := by
  cases c with
  | closed reason =>
      unfold Threads.call
      split_ifs with hflag
      · exact h
      · exact h.close (Bool.eq_false_of_not_eq_true hflag) reason
  | _ =>
      unfold Threads.call
      dsimp only
      split_ifs
      · exact h
      · exact h.wait rfl

theorem lock_file {i : Nat} {c : Call} (hc : t.pending[i]? = some c) (tsMs markerTsMs : UInt64) :
    ∃ rest, (t.lock i tsMs markerTsMs).file = t.file ++ rest ∧
      Inner.Appends t.file t.writer.inner.truncated c.terminal rest := by
  unfold Threads.lock file
  rw [hc]
  exact Inner.emitLocked_file c.builds

theorem lock_pending {i : Nat} {c : Call} (hc : t.pending[i]? = some c) (tsMs markerTsMs : UInt64) :
    (t.lock i tsMs markerTsMs).writer.closed = t.writer.closed ∧
      ((t.lock i tsMs markerTsMs).pending.filter Call.terminal).length + (if c.terminal then 1 else 0) =
        (t.pending.filter Call.terminal).length := by
  obtain ⟨hlt, rfl⟩ := List.getElem?_eq_some_iff.mp hc
  unfold Threads.lock
  rw [hc]
  refine ⟨rfl, ?_⟩
  have hperm := ((List.getElem_cons_eraseIdx_perm hlt).filter Call.terminal).length_eq
  rw [List.filter_cons] at hperm
  rw [← hperm]
  split_ifs <;> rfl

theorem Sound.lock (h : t.Sound maxBytes opening) (i : Nat) (tsMs markerTsMs : UInt64) :
    (t.lock i tsMs markerTsMs).Sound maxBytes opening := by
  cases hc : t.pending[i]? with
  | none =>
      unfold Threads.lock
      rw [hc]
      exact h
  | some c =>
      obtain ⟨rest, hfile, happends⟩ := lock_file hc tsMs markerTsMs
      obtain ⟨hclosed, hpending⟩ := lock_pending hc tsMs markerTsMs
      refine ⟨?_, ?_, ?_, ?_⟩
      · unfold Threads.lock
        rw [hc]
        exact h.inner.emitLocked c.builds
      · unfold Threads.lock
        rw [hc]
        exact Inner.emitLocked_maxBytes.trans h.cap
      · intro hfits
        rw [hfile, List.head?_append, h.first hfits]
        rfl
      · have hcloses := h.closes
        have hrest := happends.closes
        rw [hfile, List.filter_append, List.length_append, hclosed]
        omega

theorem Sound.step (h : t.Sound maxBytes opening) (a : Act) : (t.step a).Sound maxBytes opening := by
  cases a with
  | call c => exact h.call c
  | lock i tsMs markerTsMs => exact h.lock i tsMs markerTsMs

theorem Sound.run (h : t.Sound maxBytes opening) (acts : List Act) :
    (acts.foldl Threads.step t).Sound maxBytes opening := by
  induction acts generalizing t with
  | nil => exact h
  | cons a acts ih => exact ih (h.step a)

/-! ### The shape of the file -/

theorem aheadOfMarker_eq {xs ys : List DaemonEvent} {m : DaemonEvent}
    (hxs : ∀ e ∈ xs, e.isTruncated = false) (hm : m.isTruncated = true) :
    aheadOfMarker (xs ++ m :: ys) = xs := by
  unfold aheadOfMarker
  rw [List.takeWhile_append_of_pos fun e he => by simp [hxs e he], List.takeWhile_cons]
  simp [hm]

theorem Sound.wellFormed (h : t.Sound maxBytes opening) : WellFormed maxBytes opening t.file := by
  have hinner := h.inner
  have hcloses := h.closes
  have hclosed : (t.file.filter DaemonEvent.isClosed).length ≤ 1 := by
    split_ifs at hcloses <;> omega
  have hsize : (t.file.flatMap DaemonEvent.line).length ≤ maxBytes.toNat + terminalReserve := by
    have hbytes : t.writer.inner.bytesWritten = (t.file.flatMap DaemonEvent.line).length := hinner.bytes
    have hlimit := hinner.size
    rw [← hbytes]
    unfold Inner.limit at hlimit
    rw [h.cap] at hlimit
    split_ifs at hlimit <;> omega
  cases htrunc : t.writer.inner.truncated with
  | false =>
      obtain ⟨hnone, hseq⟩ := hinner.admits htrunc
      have hfilter : t.file.filter DaemonEvent.isTruncated = [] :=
        List.filter_eq_nil_iff.mpr fun e he => by simp [hnone e he]
      have hahead : aheadOfMarker t.file = t.file :=
        List.takeWhile_eq_self_iff.mpr fun e he => by simp [hnone e he]
      refine ⟨hinner.increasing, ?_, h.first, ?_, ?_, hclosed, hsize⟩
      · have hlen := congrArg List.length hseq
        rw [List.length_map, List.length_range'] at hlen
        rw [hahead]
        exact hseq.trans (by rw [← hlen]; rfl)
      · rw [hfilter]
        exact Nat.zero_le _
      · rintro xs m ys hfile hm
        have := hnone m (by rw [show t.writer.inner.file = t.file from rfl, hfile]; simp)
        rw [hm] at this
        cases this
  | true =>
      obtain ⟨xs, m, ys, hfile, hm, hxs, hys, hgapless⟩ := hinner.shut htrunc
      have hfile : t.file = xs ++ m :: ys := hfile
      have hmarkers : t.file.filter DaemonEvent.isTruncated = [m] := by
        rw [hfile, List.filter_append, List.filter_eq_nil_iff.mpr fun e he => by simp [hxs e he],
          List.filter_cons, if_pos hm, List.filter_eq_nil_iff.mpr fun e he => ?_]
        · rfl
        · have := hys e he
          cases e <;> simp_all [DaemonEvent.isClosed, DaemonEvent.isTruncated]
      refine ⟨hinner.increasing, ?_, h.first, ?_, ?_, hclosed, hsize⟩
      · rw [hfile, aheadOfMarker_eq hxs hm]
        exact hgapless
      · rw [hmarkers]
        exact le_rfl
      · intro xs' m' ys' hfile' hm'
        have hxs' : ∀ e ∈ xs', e.isTruncated = false := by
          have hone := congrArg List.length hmarkers
          rw [hfile', List.filter_append, List.filter_cons, if_pos hm', List.length_append,
            List.length_cons, List.length_singleton] at hone
          have hnil : xs'.filter DaemonEvent.isTruncated = [] := List.length_eq_zero_iff.mp (by omega)
          exact fun e he => Bool.eq_false_of_not_eq_true (List.filter_eq_nil_iff.mp hnil e he)
        -- the file splits at its one marker in one way only
        have hsame := congrArg aheadOfMarker (hfile'.symm.trans hfile)
        rw [aheadOfMarker_eq hxs' hm', aheadOfMarker_eq hxs hm] at hsame
        rw [hfile', hsame] at hfile
        cases List.append_cancel_left hfile
        exact hys

/-! ### Nothing behind the close -/

/-- A call that is not a close gets the lock before the record that closes the session is written, or
once the file is truncated. -/
def Timely (t : Threads) : Act → Prop
  | .call _ => True
  | .lock i _ _ => ∀ c, t.pending[i]? = some c → c.terminal = false →
      t.writer.inner.truncated = false → ∀ e ∈ t.file, e.isClosed = false

theorem Sound.closedLast_lock (h : t.Sound maxBytes opening) (hlast : ClosedLast t.file) {i : Nat}
    {tsMs markerTsMs : UInt64} (ha : t.Timely (.lock i tsMs markerTsMs)) :
    ClosedLast (t.lock i tsMs markerTsMs).file := by
  cases hc : t.pending[i]? with
  | none =>
      unfold Threads.lock
      rw [hc]
      exact hlast
  | some c =>
      obtain ⟨rest, hfile, happends⟩ := lock_file hc tsMs markerTsMs
      rw [hfile]
      cases hterminal : c.terminal with
      | true =>
          -- the one close is the call that gets the lock
          refine happends.last fun e he => ?_
          have hcloses := h.closes
          have hmem : c ∈ t.pending.filter Call.terminal :=
            List.mem_filter.mpr ⟨List.mem_of_getElem? hc, hterminal⟩
          have hpos := List.length_pos_of_mem hmem
          have hnil : t.file.filter DaemonEvent.isClosed = [] := by
            apply List.length_eq_zero_iff.mp
            split_ifs at hcloses <;> omega
          exact Bool.eq_false_of_not_eq_true (List.filter_eq_nil_iff.mp hnil e he)
      | false =>
          cases htrunc : t.writer.inner.truncated with
          | true =>
              rw [happends.none htrunc hterminal, List.append_nil]
              exact hlast
          | false => exact happends.last (ha c hc hterminal htrunc)

theorem call_file (c : Call) : (t.call c).file = t.file := by
  cases c <;> (unfold Threads.call; dsimp only; split_ifs <;> rfl)

theorem Sound.closedLast_step (h : t.Sound maxBytes opening) (hlast : ClosedLast t.file) {a : Act}
    (ha : t.Timely a) : ClosedLast (t.step a).file := by
  cases a with
  | call c =>
      have hfile : (t.call c).file = t.file := by
        cases c <;> (unfold Threads.call; dsimp only; split_ifs <;> rfl)
      change ClosedLast (t.call c).file
      rwa [hfile]
  | lock i tsMs markerTsMs => exact h.closedLast_lock hlast ha

/-- A record behind the one that closes the session stays there. -/
theorem Sound.timely_of_closedLast (h : t.Sound maxBytes opening) {a : Act}
    (hlast : ClosedLast (t.step a).file) : ClosedLast t.file ∧ t.Timely a := by
  cases a with
  | call c =>
      rw [show (t.step (.call c)).file = t.file from call_file c] at hlast
      exact ⟨hlast, trivial⟩
  | lock i tsMs markerTsMs =>
      cases hc : t.pending[i]? with
      | none =>
          have hsame : t.step (.lock i tsMs markerTsMs) = t := by
            change t.lock i tsMs markerTsMs = t
            unfold Threads.lock
            rw [hc]
          rw [hsame] at hlast
          refine ⟨hlast, fun c hc' => ?_⟩
          rw [hc] at hc'
          cases hc'
      | some c =>
          obtain ⟨rest, hfile, -⟩ := lock_file hc tsMs markerTsMs
          change ClosedLast (t.lock i tsMs markerTsMs).file at hlast
          rw [hfile] at hlast
          refine ⟨Inner.closedLast_of_append hlast, fun _ _ _ hopen e he => ?_⟩
          by_contra hclosed
          obtain ⟨xs, ys, hsplit⟩ := List.append_of_mem he
          rw [hsplit, List.append_assoc, List.cons_append] at hlast
          have hnil := hlast xs e (ys ++ rest) rfl (Bool.eq_true_of_not_eq_false hclosed)
          have hrest := (List.append_eq_nil_iff.mp hnil).2
          -- the call has appended something, which stands behind the close
          have hgrows : t.file.length < (t.lock i tsMs markerTsMs).file.length := by
            unfold Threads.lock file
            rw [hc]
            exact h.inner.emitLocked_grows c.builds hopen
          rw [hfile, hrest, List.append_nil] at hgrows
          exact lt_irrefl _ hgrows

/-- **When the record that closes the session is the last one.** -/
theorem Sound.closedLast_run (h : t.Sound maxBytes opening) (acts : List Act) :
    ClosedLast (acts.foldl Threads.step t).file ↔ ClosedLast t.file ∧ Along Threads.step Timely t acts := by
  induction acts generalizing t with
  | nil => exact (and_iff_left trivial).symm
  | cons a acts ih =>
      rw [List.foldl_cons, ih (h.step a), Along, ← and_assoc]
      refine and_congr_left' ⟨h.timely_of_closedLast, ?_⟩
      rintro ⟨hlast, ha⟩
      exact h.closedLast_step hlast ha

/-! ### From the start -/

def start (session : SessionName) (epoch maxBytes : UInt64) (pid : UInt32) (pidStartMs : Option UInt64)
    (bootId : Option String) (tsMs markerTsMs : UInt64) : Threads where
  writer := .opened session epoch maxBytes pid pidStartMs bootId tsMs markerTsMs

theorem sound_start (session : SessionName) (epoch maxBytes : UInt64) (pid : UInt32)
    (pidStartMs : Option UInt64) (bootId : Option String) (tsMs markerTsMs : UInt64) :
    Sound maxBytes (openingRecord session epoch pid pidStartMs bootId tsMs)
        (start session epoch maxBytes pid pidStartMs bootId tsMs markerTsMs) ∧
      ClosedLast (start session epoch maxBytes pid pidStartMs bootId tsMs markerTsMs).file := by
  have hbuild : Builds (.sessionOpened · pid schemaVersion pidStartMs bootId) false :=
    ⟨fun _ => rfl, fun _ => rfl, fun _ => rfl⟩
  obtain ⟨rest, hfile, happends⟩ : ∃ rest, (start session epoch maxBytes pid pidStartMs bootId tsMs
      markerTsMs).file = [] ++ rest ∧ Inner.Appends [] false false rest :=
    Inner.emitLocked_file hbuild
  have hlast := happends.last nofun
  rw [← hfile] at hlast
  refine ⟨⟨(Inner.sound_new maxBytes).emitLocked hbuild, Inner.emitLocked_maxBytes, ?_, ?_⟩, hlast⟩
  · intro hfits
    unfold file start EventWriter.opened
    rw [Inner.emitLocked_eq]
    dsimp only
    rw [if_neg Bool.false_ne_true, if_neg (Nat.not_lt.mpr (by rw [Nat.zero_add]; exact hfits))]
    rfl
  · change (List.filter _ (start ..).file).length + 0 ≤ 0
    rw [hfile]
    exact happends.closes

end Threads

end QuorumDispatch.Events
