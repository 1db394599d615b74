import QuorumDispatch.Dispositions.Record
import QuorumDispatch.Lib.Lines

/-!
The dispositions ledger: an append writes its row between two newlines in one
buffer, and the reader counts terminated lines only, skips blank ones and
counts the unreadable ones as corrupt.

An append may be cut after any number of its bytes. The leading newline of the
next append that gets a byte out closes whatever the cut left behind, so a torn
row becomes a line of its own: it is recovered if only its newline is missing,
and counted corrupt otherwise. What the reader returns is therefore a function
of the appends one by one, of each append's cut and of whether a later append
wrote anything.
-/

namespace QuorumDispatch.Dispositions

open Lib

/-! ### The reader -/

structure ReadResult (α : Type) where
  records : List α := []
  corruptInterior : Nat := 0
deriving DecidableEq, Repr

/-- The newline-terminated lines; what stands behind the last newline is
dropped. -/
def terminatedLines (bytes : Bytes) : List Bytes := (Lines.of newline bytes).terminated

section Reader

variable {α : Type} (serde : SerdeJson) (deserialize : Json → Except DeError α)

def parseVersionedValue (line : Bytes) : Option Json := do
  let value ← serde.fromSlice line
  if value.u64Field "v" = some 1 then some value else none

/-- The version is peeked first; the typed reading starts again from the raw
line, where repeated keys are still visible. -/
def parseRow (line : Bytes) : Option α := do
  let _ ← parseVersionedValue serde line
  let value ← serde.fromSlice line
  (deserialize value).toOption

def readLine (r : ReadResult α) (line : Bytes) : ReadResult α :=
  if line.all isAsciiWhitespace then r
  else
    match parseRow serde deserialize line with
    | some rec => { r with records := r.records ++ [rec] }
    | none => { r with corruptInterior := r.corruptInterior + 1 }

def parseJsonl (bytes : Bytes) : ReadResult α :=
  (terminatedLines bytes).foldl (readLine serde deserialize) {}

end Reader

def parseDispositions (serde : SerdeJson) (bytes : Bytes) : ReadResult DispositionEvent :=
  parseJsonl serde DispositionEvent.deserialize bytes

/-! ### The appender -/

/-- The one buffer that `append_line` writes. -/
def appendBuffer (line : List Char) : Bytes := newline :: (encodeUtf8 line ++ [newline])

/-- A call of `append_event` and the number of bytes it got out; the call was
cut short when these are fewer than its buffer holds. -/
structure Append where
  event : DispositionEvent
  cut : Nat
deriving DecidableEq, Repr

def Append.line (serde : SerdeJson) (a : Append) : Bytes :=
  encodeUtf8 (a.event.toJsonlLine serde)

def appendEvent (serde : SerdeJson) (content : Bytes) (a : Append) : Bytes :=
  content ++ (appendBuffer (a.event.toJsonlLine serde)).take a.cut

def runAppends (serde : SerdeJson) (content : Bytes) (appends : List Append) : Bytes :=
  appends.foldl (appendEvent serde) content

/-! ### What a run leaves behind -/

def Append.wrote (a : Append) : Bool := 0 < a.cut

/-- Every byte of the record line was written, its newline included. -/
def Append.Complete (serde : SerdeJson) (a : Append) : Prop :=
  (a.line serde).length + 2 ≤ a.cut

def Append.WholeButNewline (serde : SerdeJson) (a : Append) : Prop :=
  a.cut = (a.line serde).length + 1

def Append.Torn (serde : SerdeJson) (a : Append) : Prop :=
  2 ≤ a.cut ∧ a.cut ≤ (a.line serde).length

instance (serde : SerdeJson) (a : Append) : Decidable (a.Complete serde) :=
  inferInstanceAs (Decidable (_ ≤ _))

instance (serde : SerdeJson) (a : Append) : Decidable (a.WholeButNewline serde) :=
  inferInstanceAs (Decidable (_ = _))

instance (serde : SerdeJson) (a : Append) : Decidable (a.Torn serde) :=
  inferInstanceAs (Decidable (_ ∧ _))

/-- The earlier content as the run leaves it to the reader: its last line is
closed as soon as one append gets a byte out. -/
def sealedContent (content : Bytes) (appends : List Append) : Bytes :=
  if appends.any Append.wrote then content ++ [newline] else content

/-- The records that a run delivers, in append order: those completely written,
and those whose missing newline a later append supplied. -/
def landed (serde : SerdeJson) : List Append → List DispositionEvent
  | [] => []
  | a :: rest =>
      if a.Complete serde ∨ (a.WholeButNewline serde ∧ rest.any Append.wrote = true) then
        a.event :: landed serde rest
      else landed serde rest

/-- The torn records that a later append closed into a line of their own. -/
def closedFragments (serde : SerdeJson) : List Append → Nat
  | [] => 0
  | a :: rest =>
      (if a.Torn serde ∧ rest.any Append.wrote = true then 1 else 0) +
        closedFragments serde rest

/-! ### Reading line by line -/

namespace ReadResult

/-- The result of reading one stretch of lines and then another. -/
def append {α : Type} (r s : ReadResult α) : ReadResult α :=
  ⟨r.records ++ s.records, r.corruptInterior + s.corruptInterior⟩

@[simp] theorem append_empty {α : Type} (r : ReadResult α) : r.append {} = r := by
  simp [append]

theorem append_assoc {α : Type} (r s t : ReadResult α) :
    (r.append s).append t = r.append (s.append t) := by
  simp [append, Nat.add_assoc]

end ReadResult

section Reading

variable {α : Type} {serde : SerdeJson} {deserialize : Json → Except DeError α}

theorem foldl_readLine (r : ReadResult α) (lines : List Bytes) :
    lines.foldl (readLine serde deserialize) r =
      r.append (lines.foldl (readLine serde deserialize) {}) := by
  induction lines generalizing r with
  | nil => simp
  | cons line lines ih =>
      have hstep : readLine serde deserialize r line =
          r.append (readLine serde deserialize {} line) := by
        unfold readLine
        split
        · simp
        · split <;> simp [ReadResult.append]
      rw [List.foldl_cons, List.foldl_cons, ih, ih (readLine serde deserialize {} line), hstep,
        ReadResult.append_assoc]

theorem parseJsonl_of_lines {bytes more : Bytes} {lines : List Bytes}
    (h : terminatedLines more = terminatedLines bytes ++ lines) :
    parseJsonl serde deserialize more =
      (parseJsonl serde deserialize bytes).append
        (lines.foldl (readLine serde deserialize) {}) := by
  rw [parseJsonl, h, List.foldl_append, foldl_readLine]
  rfl

end Reading

variable {serde : SerdeJson}

theorem parseRow_line {e : DispositionEvent} (h : serde.LawfulAt e.toJson) :
    parseRow serde DispositionEvent.deserialize (serde.toVec e.toJson) = some e := by
  simp [parseRow, parseVersionedValue, h.roundTrip, e.version_toJson, e.deserialize_toJson,
    Except.toOption]

theorem prefix_not_blank {j : Json} (h : serde.LawfulAt j) {p : Bytes}
    (hp : p <+: serde.toVec j) (hne : p ≠ []) : p.all isAsciiWhitespace = false := by
  obtain ⟨rest, hrest⟩ := h.toVec_eq
  obtain ⟨b, p, rfl⟩ := List.exists_cons_of_ne_nil hne
  rw [hrest, List.cons_prefix_cons] at hp
  obtain ⟨rfl, -⟩ := hp
  simp [isAsciiWhitespace]

/-- The lines that an append leaves behind once it got a byte out: the one its
leading newline closes stands before them, and the row is among them when its
own newline was written or `closed` says that a later append wrote one. -/
def Append.lines (serde : SerdeJson) (a : Append) (closed : Bool) : List Bytes :=
  (if a.Complete serde then [a.line serde] else []) ++
    (if closed then [if a.Complete serde then [] else (a.line serde).take (a.cut - 1)] else [])

theorem foldl_readLine_lines {a : Append} (h : serde.LawfulAt a.event.toJson)
    (closed : Bool) :
    (a.lines serde closed).foldl (readLine serde DispositionEvent.deserialize) {} =
      ⟨if a.Complete serde ∨ (a.WholeButNewline serde ∧ closed = true) then [a.event] else [],
        if a.Torn serde ∧ closed = true then 1 else 0⟩ := by
  have hline : a.line serde = serde.toVec a.event.toJson := rfl
  have hread : readLine serde DispositionEvent.deserialize {} (a.line serde) =
      ⟨[a.event], 0⟩ := by
    rw [hline, readLine, prefix_not_blank h (List.prefix_refl _) h.toVec_ne_nil,
      parseRow_line h]
    rfl
  by_cases hc : a.Complete serde
  · have ht : ¬ a.Torn serde := by
      unfold Append.Torn Append.Complete at *
      omega
    have hblank : readLine serde DispositionEvent.deserialize ⟨[a.event], 0⟩ [] =
        ⟨[a.event], 0⟩ := rfl
    cases closed <;> simp [Append.lines, hc, ht, hread, hblank]
  · cases closed with
    | false => simp [Append.lines, hc]
    | true =>
        -- the cut lies inside the line: nothing of it, a part of it, or all of it
        simp only [Append.lines, hc, if_false, if_true, List.nil_append, List.foldl_cons,
          List.foldl_nil, false_or, and_true]
        have hcut : a.cut < (a.line serde).length + 2 := Nat.lt_of_not_le hc
        rcases Nat.lt_or_ge a.cut 2 with hsmall | hlarge
        · have hpos := List.length_pos_iff.mpr h.toVec_ne_nil
          rw [← hline] at hpos
          have hw : ¬ a.WholeButNewline serde := fun hw => by
            unfold Append.WholeButNewline at hw
            omega
          have ht : ¬ a.Torn serde := fun ht => absurd ht.1 (Nat.not_le.mpr hsmall)
          have hzero : a.cut - 1 = 0 := by omega
          rw [hzero, List.take_zero, if_neg hw, if_neg ht]
          rfl
        · rcases Nat.lt_or_ge (a.line serde).length a.cut with hwhole | hpart
          · have hw : a.WholeButNewline serde := Nat.le_antisymm (by omega) hwhole
            have ht : ¬ a.Torn serde := fun ht => absurd ht.2 (Nat.not_le.mpr hwhole)
            rw [List.take_of_length_le (by omega), hread, if_pos hw, if_neg ht]
          · have hw : ¬ a.WholeButNewline serde := fun hw => by
              unfold Append.WholeButNewline at hw
              omega
            have ht : a.Torn serde := ⟨hlarge, hpart⟩
            have hpre : (a.line serde).take (a.cut - 1) <+: a.line serde :=
              List.take_prefix _ _
            have hlen : ((a.line serde).take (a.cut - 1)).length = a.cut - 1 := by
              rw [List.length_take]
              omega
            have hne : (a.line serde).take (a.cut - 1) ≠ [] := by
              intro hnil
              rw [hnil, List.length_nil] at hlen
              omega
            have hshort : (a.line serde).take (a.cut - 1) ≠ a.line serde := by
              intro heq
              rw [heq] at hlen
              omega
            rw [readLine, prefix_not_blank h hpre hne, parseRow, parseVersionedValue,
              h.truncated _ hpre hshort, if_neg hw, if_pos ht]
            rfl

/-! ### One append -/

theorem sealedContent_cons_of_cut_zero {content : Bytes} {a : Append} {rest : List Append}
    (h : a.cut = 0) : sealedContent content (a :: rest) = sealedContent content rest := by
  simp [sealedContent, Append.wrote, h]

theorem appendEvent_of_cut_zero {content : Bytes} {a : Append} (h : a.cut = 0) :
    appendEvent serde content a = content := by
  simp [appendEvent, h]

theorem terminatedLines_appendEvent {a : Append} (h : serde.LawfulAt a.event.toJson)
    (hcut : 0 < a.cut) (content : Bytes) (closed : Bool) :
    terminatedLines (appendEvent serde content a ++ if closed then [newline] else []) =
      terminatedLines (content ++ [newline]) ++ a.lines serde closed := by
  obtain ⟨k, hk⟩ : ∃ k, a.cut = k + 1 := ⟨a.cut - 1, by omega⟩
  have hnl : newline ∉ a.line serde := h.newline_notMem
  have hwritten : (appendBuffer (a.event.toJsonlLine serde)).take a.cut =
      newline :: (a.line serde ++ [newline]).take k := by
    rw [hk]
    rfl
  have htail : ∀ p : Bytes, newline ∉ p → ∀ s : Lines UInt8,
      Lines.extend newline s p = ⟨s.terminated, s.tail ++ p⟩ := fun p hp s =>
    Lines.extend_of_notMem hp s
  by_cases hc : a.Complete serde
  · have hall : (a.line serde ++ [newline]).take k = a.line serde ++ [newline] := by
      apply List.take_of_length_le
      unfold Append.Complete at hc
      simp only [List.length_append, List.length_singleton]
      omega
    cases closed <;>
      simp [terminatedLines, appendEvent, hwritten, hall, Append.lines, hc,
        Lines.extend_cons, Lines.push, htail _ hnl]
  · have hpart : (a.line serde ++ [newline]).take k = (a.line serde).take k := by
      apply List.take_append_of_le_length
      unfold Append.Complete at hc
      omega
    have hnl' : newline ∉ (a.line serde).take k := fun hm => hnl (List.mem_of_mem_take hm)
    have hpred : a.cut - 1 = k := by omega
    cases closed <;>
      simp [terminatedLines, appendEvent, hwritten, hpart, Append.lines, hc, hpred,
        Lines.extend_cons, Lines.push, htail _ hnl']

theorem Append.prefix_of_mem_lines {a : Append} {closed : Bool} {l : Bytes}
    (h : l ∈ a.lines serde closed) : l <+: a.line serde := by
  unfold Append.lines at h
  rcases List.mem_append.mp h with h | h
  · split at h
    · rw [List.mem_singleton.mp h]
    · cases h
  · split at h
    · rw [List.mem_singleton.mp h]
      split
      · exact List.nil_prefix
      · exact List.take_prefix _ _
    · cases h

/-! ### A run of appends -/

def runLines (serde : SerdeJson) : List Append → List Bytes
  | [] => []
  | a :: rest =>
      (if a.wrote then a.lines serde (rest.any Append.wrote) else []) ++ runLines serde rest

theorem terminatedLines_runAppends {appends : List Append}
    (h : ∀ a ∈ appends, serde.LawfulAt a.event.toJson) (content : Bytes) :
    terminatedLines (runAppends serde content appends) =
      terminatedLines (sealedContent content appends) ++ runLines serde appends := by
  induction appends generalizing content with
  | nil => simp [runAppends, sealedContent, runLines]
  | cons a rest ih =>
      have hrest := ih (fun b hb => h b (List.mem_cons_of_mem _ hb)) (appendEvent serde content a)
      have hrun : runAppends serde content (a :: rest) =
          runAppends serde (appendEvent serde content a) rest := rfl
      rw [hrun, hrest]
      rcases Nat.eq_zero_or_pos a.cut with hcut | hcut
      · have hwrote : a.wrote = false := by simp [Append.wrote, hcut]
        simp [runLines, hwrote, sealedContent_cons_of_cut_zero hcut,
          appendEvent_of_cut_zero hcut]
      · have hwrote : a.wrote = true := by simp [Append.wrote, hcut]
        have hseal : sealedContent content (a :: rest) = content ++ [newline] := by
          simp [sealedContent, hwrote]
        have hnext : sealedContent (appendEvent serde content a) rest =
            appendEvent serde content a ++
              if rest.any Append.wrote then [newline] else [] := by
          unfold sealedContent
          split <;> simp
        rw [hnext, terminatedLines_appendEvent (h a List.mem_cons_self) hcut content, hseal,
          runLines, hwrote, if_pos rfl, List.append_assoc]

theorem foldl_readLine_runLines {appends : List Append}
    (h : ∀ a ∈ appends, serde.LawfulAt a.event.toJson) :
    (runLines serde appends).foldl (readLine serde DispositionEvent.deserialize) {} =
      ⟨landed serde appends, closedFragments serde appends⟩ := by
  induction appends with
  | nil => rfl
  | cons a rest ih =>
      have hrest := ih (fun b hb => h b (List.mem_cons_of_mem _ hb))
      rw [runLines, List.foldl_append, foldl_readLine, hrest]
      rcases Nat.eq_zero_or_pos a.cut with hcut | hcut
      · have hwrote : a.wrote = false := by simp [Append.wrote, hcut]
        simp [hwrote, landed, closedFragments, Append.Complete, Append.WholeButNewline,
          Append.Torn, hcut, ReadResult.append]
      · have hwrote : a.wrote = true := by simp [Append.wrote, hcut]
        rw [hwrote, if_pos rfl, foldl_readLine_lines (h a List.mem_cons_self)]
        rw [landed, closedFragments]
        split <;> simp [ReadResult.append]

theorem prefix_of_mem_runLines {appends : List Append} {l : Bytes} (h : l ∈ runLines serde appends) :
    ∃ a ∈ appends, l <+: a.line serde := by
  induction appends with
  | nil => cases h
  | cons a rest ih =>
      rcases List.mem_append.mp h with h | h
      · split at h
        · exact ⟨a, List.mem_cons_self, Append.prefix_of_mem_lines h⟩
        · cases h
      · obtain ⟨b, hb, hl⟩ := ih h
        exact ⟨b, List.mem_cons_of_mem _ hb, hl⟩

/-- What the reader returns after any run of appends on a file with any earlier
content, each cut anywhere: the records of the earlier content, then exactly
the landed ones in append order, and one corrupt line for each closed fragment.
The lines behind the earlier content each hold bytes of a single append. -/
theorem parseDispositions_runAppends (serde : SerdeJson) (content : Bytes)
    (appends : List Append) (h : ∀ a ∈ appends, serde.LawfulAt a.event.toJson) :
    parseDispositions serde (runAppends serde content appends) =
        (parseDispositions serde (sealedContent content appends)).append
          ⟨landed serde appends, closedFragments serde appends⟩ ∧
      ((appends.filter (·.Complete serde)).map Append.event).Sublist (landed serde appends) ∧
      ∃ lines, terminatedLines (runAppends serde content appends) =
          terminatedLines (sealedContent content appends) ++ lines ∧
        ∀ l ∈ lines, ∃ a ∈ appends, l <+: a.line serde := by
  refine ⟨?_, ?_, runLines serde appends, terminatedLines_runAppends h content,
    fun l hl => prefix_of_mem_runLines hl⟩
  · rw [parseDispositions, parseJsonl_of_lines (terminatedLines_runAppends h content),
      foldl_readLine_runLines h]
    rfl
  · clear h
    induction appends with
    | nil => exact .slnil
    | cons a rest ih =>
        by_cases hc : a.Complete serde
        · simp only [landed, hc, true_or, if_true, List.filter_cons_of_pos, decide_true,
            List.map_cons]
          exact ih.cons_cons _
        · rw [List.filter_cons_of_neg (by simpa using hc), landed]
          split
          · exact ih.cons _
          · exact ih

def tornThenWhole : List Append :=
  [⟨.attempted "a" 0, 5⟩, ⟨.queued "a" 1, 100⟩]

theorem parseDispositions_tornThenWhole :
    let serde := SerdeJson.knowing (tornThenWhole.map (·.event.toJson))
    parseDispositions serde (runAppends serde [] tornThenWhole) = ⟨[.queued "a" 1], 1⟩ := by
  intro serde
  have hlawful : ∀ a ∈ tornThenWhole, serde.LawfulAt a.event.toJson := by
    obtain ⟨hattempted, hqueued⟩ : serde.LawfulAt _ ∧ serde.LawfulAt _ :=
      SerdeJson.lawfulAt_knowing_pair (by decide) (by decide) (by decide) (by decide)
    exact List.forall_mem_cons.mpr ⟨hattempted, List.forall_mem_singleton.mpr hqueued⟩
  rw [(parseDispositions_runAppends serde [] tornThenWhole hlawful).1]
  decide

end QuorumDispatch.Dispositions
