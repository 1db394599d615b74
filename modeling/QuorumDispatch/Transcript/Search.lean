import QuorumDispatch.Lib.Slices
import QuorumDispatch.Transcript.Recovery

/-!
What the recovery read finds. The walk beside the parsed lines comes to the lines of the slice, each
with the offset at which it begins; a match is the first line of the slice that has the content, and
stays it when the transcript grows, unless its own line does.
-/

namespace QuorumDispatch.Transcript

open Lib
open DeliveryEvents (EventRecord RecoveryVerdict)
open Pty (chunkText chunkBytes)

variable {lib : RecoveryLib} {deps : RecoveryDeps} {si : EventRecord} {text slice : List Char}
  {tsFloor : Option Int} {cursor lineIndex : Nat}

/-! ### The slice -/

theorem toCharBoundary_spec {bytes : Bytes} {left start : Nat} (h : start + left = bytes.length) :
    charBoundary bytes (toCharBoundary bytes left start) = true ∧
      start ≤ toCharBoundary bytes left start ∧ toCharBoundary bytes left start ≤ bytes.length := by
  induction left generalizing start with
  | zero =>
      have hend : bytes[start]? = none := List.getElem?_eq_none (by omega)
      rw [toCharBoundary, charBoundary, hend]
      exact ⟨rfl, le_refl _, by omega⟩
  | succ left ih =>
      rw [toCharBoundary]
      split
      · rename_i hboundary
        exact ⟨hboundary, le_refl _, by omega⟩
      · obtain ⟨hboundary, hle, hlen⟩ := @ih (start + 1) (by omega)
        exact ⟨hboundary, by omega, hlen⟩

theorem windowStart_spec (text : List Char) (minOffset : Option Nat) :
    charBoundary (encodeUtf8 text) (windowStart text minOffset) = true ∧
      windowStart text minOffset ≤ (encodeUtf8 text).length ∧
        ∀ o, minOffset = some o → min o (encodeUtf8 text).length ≤ windowStart text minOffset := by
  cases minOffset with
  | none => exact ⟨charBoundary_zero text, Nat.zero_le _, fun o ho => by cases ho⟩
  | some o =>
      have hspec := @toCharBoundary_spec (encodeUtf8 text)
        ((encodeUtf8 text).length - min o (encodeUtf8 text).length)
        (min o (encodeUtf8 text).length) (by omega)
      refine ⟨hspec.1, hspec.2.2, fun o' ho => ?_⟩
      rw [← Option.some.inj ho]
      exact hspec.2.1

theorem exists_slice (text : List Char) (minOffset : Option Nat) :
    ∃ front slice, text = front ++ slice ∧
      (encodeUtf8 front).length = windowStart text minOffset ∧
        sliceFrom text (windowStart text minOffset) = some slice := by
  obtain ⟨hboundary, hle, -⟩ := windowStart_spec text minOffset
  obtain ⟨front, ⟨slice, rfl⟩, htake⟩ := exists_prefix_of_charBoundary hboundary
  have hlen : (encodeUtf8 front).length = windowStart (front ++ slice) minOffset := by
    rw [← htake, List.length_take, Nat.min_eq_left hle]
  refine ⟨front, slice, rfl, hlen, ?_⟩
  rw [sliceFrom, if_pos ⟨hle, hboundary⟩, encodeUtf8_append, List.drop_left' hlen,
    decodeUtf8_encodeUtf8]

/-! ### The walk -/

def lineText (lib : RecoveryLib) (tsFloor : Option Int) (line : List Char) : Option String :=
  if isBlank line then none else candidateText lib tsFloor (parseLine lib.serde line)

/-- The candidates of a list of lines that are each followed by a newline. -/
def candidatesFrom (lib : RecoveryLib) (tsFloor : Option Int) :
    List (List Char) → Nat → Nat → List Candidate
  | [], _, _ => []
  | line :: rest, cursor, lineIndex =>
      let more := candidatesFrom lib tsFloor rest (cursor + (encodeUtf8 line).length + 1)
        (if isBlank line then lineIndex else lineIndex + 1)
      match lineText lib tsFloor line with
      | some text => { text, startOffset := cursor, lineIndex } :: more
      | none => more

@[simp] theorem isBlank_newline (line : List Char) : isBlank (line ++ ['\n']) = isBlank line := by
  rw [Bool.eq_iff_iff, isBlank_iff, isBlank_iff]
  constructor
  · exact fun h c hc => h c (List.mem_append_left _ hc)
  · intro h c hc
    rcases List.mem_append.mp hc with hc | hc
    · exact h c hc
    · rw [List.mem_singleton.mp hc]
      rfl

theorem walkLines_cons {raw line : List Char} (hblank : isBlank raw = isBlank line)
    (rest : List (List Char)) (others : List (List Char)) :
    walkLines lib tsFloor (raw :: rest) (((line :: others).filter (!isBlank ·)).map
        (parseLine lib.serde)) cursor lineIndex =
      (match lineText lib tsFloor line with
        | some text => [{ text, startOffset := cursor, lineIndex }]
        | none => []) ++
        walkLines lib tsFloor rest ((others.filter (!isBlank ·)).map (parseLine lib.serde))
          (cursor + (encodeUtf8 raw).length) (if isBlank line then lineIndex else lineIndex + 1) := by
  rw [lineText]
  cases hline : isBlank line with
  | true =>
      rw [List.filter_cons_of_neg (by simp [hline]), walkLines.eq_def]
      simp only [hblank, hline, if_true, List.nil_append]
  | false =>
      rw [List.filter_cons_of_pos (by simp [hline]), List.map_cons, walkLines.eq_def]
      simp only [hblank, hline, Bool.false_eq_true, if_false]
      cases candidateText lib tsFloor (parseLine lib.serde line) with
      | none => rfl
      | some text => rfl

theorem walkLines_eq (closed : List (List Char)) (tail : List Char) :
    walkLines lib tsFloor (closed.map (· ++ ['\n']) ++ if tail = [] then [] else [tail])
        (((closed ++ [tail]).filter (!isBlank ·)).map (parseLine lib.serde)) cursor lineIndex =
      candidatesFrom lib tsFloor (closed ++ [tail]) cursor lineIndex := by
  induction closed generalizing cursor lineIndex with
  | nil =>
      rw [List.map_nil, List.nil_append, List.nil_append, candidatesFrom]
      split
      · rename_i htail
        subst htail
        rfl
      · rw [walkLines_cons rfl, walkLines, List.append_nil, candidatesFrom]
  | cons line closed ih =>
      have hlen : (encodeUtf8 (line ++ ['\n'])).length = (encodeUtf8 line).length + 1 := by
        rw [encodeUtf8_append, encodeUtf8_newline, List.length_append, List.length_singleton]
      rw [List.map_cons, List.cons_append, List.cons_append, walkLines_cons (isBlank_newline line),
        ih, candidatesFrom, hlen, Nat.add_assoc]
      cases lineText lib tsFloor line with
      | none => rfl
      | some text => rfl

theorem walkLines_slice (slice : List Char) :
    walkLines lib tsFloor (splitInclusive '\n' slice) (parseJsonlSlice lib.serde slice) cursor
        lineIndex = candidatesFrom lib tsFloor (slice.splitOn '\n') cursor lineIndex := by
  obtain ⟨closed, tail, hclosed, htail, rfl⟩ := exists_closed_tail '\n' slice
  rw [parseJsonlSlice, splitOn_closed_tail hclosed htail, splitInclusive_closed_tail hclosed htail,
    walkLines_eq]

theorem extractCandidates_eq {front : List Char} {minOffset : Option Nat}
    (hslice : sliceFrom text (windowStart text minOffset) = some slice)
    (hfront : (encodeUtf8 front).length = windowStart text minOffset) :
    extractCandidates lib text minOffset tsFloor =
      some (candidatesFrom lib tsFloor (slice.splitOn '\n') (encodeUtf8 front).length 0) := by
  rw [extractCandidates, hslice, hfront, Option.bind_eq_bind, Option.bind_some, walkLines_slice]

/-! ### The first match -/

def linesLen (lines : List (List Char)) : Nat := (encodeUtf8 (lines.flatMap (· ++ ['\n']))).length

theorem linesLen_cons (line : List Char) (lines : List (List Char)) :
    linesLen (line :: lines) = (encodeUtf8 line).length + 1 + linesLen lines := by
  rw [linesLen, List.flatMap_cons, encodeUtf8_append, encodeUtf8_append, encodeUtf8_newline,
    List.length_append, List.length_append, List.length_singleton]
  rfl

structure FirstLine (lib : RecoveryLib) (tsFloor : Option Int) (p : String → Bool)
    (lines before : List (List Char)) (line : List Char) (text : String) : Prop where
  splits : ∃ after, lines = before ++ line :: after
  shows : lineText lib tsFloor line = some text
  matches_ : p text = true
  first : ∀ l ∈ before, ∀ t, lineText lib tsFloor l = some t → p t = false

theorem find?_candidatesFrom_iff {p : String → Bool} {lines : List (List Char)} {c : Candidate} :
    (candidatesFrom lib tsFloor lines cursor lineIndex).find? (fun c => p c.text) = some c ↔
      ∃ before line, FirstLine lib tsFloor p lines before line c.text ∧
        c.startOffset = cursor + linesLen before ∧
        c.lineIndex = lineIndex + (before.filter (!isBlank ·)).length := by
  induction lines generalizing cursor lineIndex with
  | nil =>
      constructor
      · intro h
        cases h
      · rintro ⟨before, line, ⟨⟨after, h⟩, -, -, -⟩, -⟩
        simp at h
  | cons line lines ih =>
      have hskip : (∀ t, lineText lib tsFloor line = some t → p t = false) →
          ((candidatesFrom lib tsFloor lines (cursor + (encodeUtf8 line).length + 1)
            (if isBlank line then lineIndex else lineIndex + 1)).find? (fun c => p c.text) = some c ↔
          ∃ before l, FirstLine lib tsFloor p (line :: lines) before l c.text ∧
            c.startOffset = cursor + linesLen before ∧
            c.lineIndex = lineIndex + (before.filter (!isBlank ·)).length) := by
        intro hno
        have hcount : ∀ before : List (List Char), (if isBlank line then lineIndex else lineIndex + 1) +
            (before.filter (!isBlank ·)).length =
              lineIndex + ((line :: before).filter (!isBlank ·)).length := by
          intro before
          cases hblank : isBlank line with
          | true => simp [hblank]
          | false => simp [hblank]; omega
        rw [ih]
        constructor
        · rintro ⟨before, l, ⟨⟨after, rfl⟩, hshows, hp, hfirst⟩, hoffset, hindex⟩
          refine ⟨line :: before, l, ⟨⟨after, rfl⟩, hshows, hp, List.forall_mem_cons.mpr ⟨hno, hfirst⟩⟩,
            ?_, by rw [hindex, hcount]⟩
          rw [hoffset, linesLen_cons]
          omega
        · rintro ⟨before, l, ⟨⟨after, hsplit⟩, hshows, hp, hfirst⟩, hoffset, hindex⟩
          cases before with
          | nil =>
              obtain ⟨rfl, -⟩ := List.cons.inj hsplit
              rw [hno _ hshows] at hp
              cases hp
          | cons b before =>
              obtain ⟨rfl, rfl⟩ := List.cons.inj hsplit
              refine ⟨before, l, ⟨⟨after, rfl⟩, hshows, hp, (List.forall_mem_cons.mp hfirst).2⟩, ?_,
                by rw [hindex, hcount]⟩
              rw [hoffset, linesLen_cons]
              omega
      rw [candidatesFrom]
      cases hline : lineText lib tsFloor line with
      | none => exact hskip fun t ht => by rw [hline] at ht; cases ht
      | some t =>
          cases hp : p t with
          | false =>
              simp only [List.find?_cons, hp]
              exact hskip fun t' ht' => by rw [hline] at ht'; rwa [← Option.some.inj ht']
          | true =>
              simp only [List.find?_cons, hp, Option.some.injEq]
              constructor
              · rintro rfl
                exact ⟨[], line, ⟨⟨lines, rfl⟩, hline, hp, List.forall_mem_nil _⟩, rfl, rfl⟩
              · rintro ⟨before, l, ⟨⟨after, hsplit⟩, hshows, -, hfirst⟩, hoffset, hindex⟩
                cases before with
                | nil =>
                    obtain ⟨rfl, -⟩ := List.cons.inj hsplit
                    rw [hline] at hshows
                    obtain ⟨text, offset, index⟩ := c
                    obtain rfl : t = text := Option.some.inj hshows
                    obtain rfl : offset = cursor := hoffset
                    obtain rfl : index = lineIndex := hindex
                    rfl
                | cons b before =>
                    obtain ⟨rfl, -⟩ := List.cons.inj hsplit
                    rw [hfirst _ List.mem_cons_self t hline] at hp
                    cases hp

theorem map_text_candidatesFrom (lines : List (List Char)) :
    (candidatesFrom lib tsFloor lines cursor lineIndex).map (·.text) =
      lines.filterMap (lineText lib tsFloor) := by
  induction lines generalizing cursor lineIndex with
  | nil => rfl
  | cons line lines ih =>
      rw [candidatesFrom]
      cases hline : lineText lib tsFloor line with
      | none => rw [List.filterMap_cons_none hline, ← ih]
      | some t => rw [List.filterMap_cons_some hline, ← ih]; rfl

/-! ### Lines of a text -/

structure LineOf (text front line : List Char) : Prop where
  begins : front = [] ∨ front.getLast? = some '\n'
  oneLine : '\n' ∉ line
  ends : ∃ rest, text = front ++ line ++ rest ∧ (rest = [] ∨ rest.head? = some '\n')

theorem exists_closed_of_getLast? {front : List Char} (h : front = [] ∨ front.getLast? = some '\n') :
    ∃ before : List (List Char), (∀ p ∈ before, '\n' ∉ p) ∧ front = before.flatMap (· ++ ['\n']) := by
  obtain ⟨closed, tail, hclosed, htail, rfl⟩ := exists_closed_tail '\n' front
  rcases List.eq_nil_or_concat tail with rfl | ⟨start, last, hlast⟩
  · exact ⟨closed, hclosed, by rw [List.append_nil]⟩
  · -- an open piece would be at the end
    subst hlast
    rw [List.concat_eq_append, ← List.append_assoc] at h
    rcases h with h | h
    · exact absurd h (by simp)
    · rw [List.getLast?_append, List.getLast?_singleton, Option.some_or, Option.some.injEq] at h
      subst h
      exact absurd (List.mem_append_right start (List.mem_singleton_self '\n'))
        (by rwa [List.concat_eq_append] at htail)

theorem lineOf_iff {front line : List Char} :
    LineOf text front line ↔ ∃ before after, text.splitOn '\n' = before ++ line :: after ∧
      front = before.flatMap (· ++ ['\n']) := by
  constructor
  · rintro ⟨hfront, hline, rest, htext, hrest⟩
    obtain ⟨before, hbefore, rfl⟩ := exists_closed_of_getLast? hfront
    obtain ⟨after, hafter⟩ := splitOn_eq_append_cons_iff.mpr ⟨hbefore, hline, rest, htext, hrest⟩
    exact ⟨before, after, hafter, rfl⟩
  · rintro ⟨before, after, hsplit, rfl⟩
    obtain ⟨-, hline, rest, htext, hrest⟩ := splitOn_eq_append_cons_iff.mp ⟨after, hsplit⟩
    refine ⟨?_, hline, rest, htext, hrest⟩
    rcases List.eq_nil_or_concat before with rfl | ⟨start, last, rfl⟩
    · exact .inl rfl
    · right
      rw [List.concat_eq_append, List.flatMap_append, List.flatMap_singleton, ← List.append_assoc,
        List.getLast?_append, List.getLast?_singleton, Option.some_or]

theorem splitOn_lt {before before' after after' : List (List Char)} {line line' : List Char}
    (h : before ++ line :: after = before' ++ line' :: after')
    (hlt : (before'.flatMap (· ++ ['\n'])).length < (before.flatMap (· ++ ['\n'])).length) :
    line' ∈ before := by
  rcases List.append_eq_append_iff.mp h with ⟨more, rfl, hmore⟩ | ⟨more, rfl, hmore⟩
  · rw [List.flatMap_append, List.length_append] at hlt
    omega
  · cases more with
    | nil =>
        rw [List.append_nil] at hlt
        exact absurd hlt (lt_irrefl _)
    | cons m more =>
        rw [List.cons_append] at hmore
        rw [(List.cons.inj hmore).1]
        exact List.mem_append_right _ List.mem_cons_self

theorem lt_of_mem_before {before after : List (List Char)} {l line : List Char} (hl : l ∈ before)
    (hsplit : text.splitOn '\n' = before ++ line :: after) :
    ∃ front, LineOf text front l ∧ front.length < (before.flatMap (· ++ ['\n'])).length := by
  obtain ⟨start, finish, rfl⟩ := List.append_of_mem hl
  refine ⟨start.flatMap (· ++ ['\n']), lineOf_iff.mpr ⟨start, finish ++ line :: after, ?_, rfl⟩, ?_⟩
  · rw [hsplit, List.append_assoc, List.cons_append]
  · simp only [List.flatMap_append, List.flatMap_cons, List.length_append, List.length_singleton]
    omega

structure AnchorLine (lib : RecoveryLib) (tsFloor : Option Int) (contentSha : String)
    (text front line : List Char) : Prop where
  isLine : LineOf text front line
  shows : ∃ t, lineText lib tsFloor line = some t ∧
    lib.sha256Hex (encodeUtf8 t.toList) = contentSha
  first : ∀ front' line', LineOf text front' line' → front'.length < front.length →
    ∀ t, lineText lib tsFloor line' = some t → lib.sha256Hex (encodeUtf8 t.toList) ≠ contentSha

theorem anchorLine_iff {contentSha : String} {before : List (List Char)} {line : List Char} :
    (∃ t, FirstLine lib tsFloor (fun t => lib.sha256Hex (encodeUtf8 t.toList) == contentSha)
      (text.splitOn '\n') before line t) ↔
      (∃ after, text.splitOn '\n' = before ++ line :: after) ∧
        AnchorLine lib tsFloor contentSha text (before.flatMap (· ++ ['\n'])) line := by
  constructor
  · rintro ⟨t, ⟨after, hsplit⟩, hshows, hp, hfirst⟩
    refine ⟨⟨after, hsplit⟩, lineOf_iff.mpr ⟨before, after, hsplit, rfl⟩,
      ⟨t, hshows, beq_iff_eq.mp hp⟩, ?_⟩
    intro front' line' hline' hlt t' ht'
    obtain ⟨before', after', hsplit', rfl⟩ := lineOf_iff.mp hline'
    exact beq_eq_false_iff_ne.mp (hfirst line' (splitOn_lt (hsplit.symm.trans hsplit') hlt) t' ht')
  · rintro ⟨⟨after, hsplit⟩, -, ⟨t, hshows, hsha⟩, hfirst⟩
    refine ⟨t, ⟨after, hsplit⟩, hshows, beq_iff_eq.mpr hsha, ?_⟩
    intro l hl t' ht'
    obtain ⟨front', hline', hlt⟩ := lt_of_mem_before hl hsplit
    exact beq_eq_false_iff_ne.mpr (hfirst front' l hline' hlt t' ht')

/-! ### The window of a record -/

inductive WindowOf (lib : RecoveryLib) (deps : RecoveryDeps) (si : EventRecord) :
    String → String → List Char → Option Nat → Option Int → Prop
  | offset {transcript : String} {text : List Char} {o : Nat}
      (ht : (Json.obj si.obj).strField "transcript" = some transcript)
      (ho : (Json.obj si.obj).u64Field "transcript_offset" = some o)
      (hread : deps.readTranscript transcript = some text) :
      WindowOf lib deps si transcript "offset" text (some o) none
  | time {transcript : String} {text : List Char}
      (hno : (Json.obj si.obj).strField "transcript" = none ∨
        (Json.obj si.obj).u64Field "transcript_offset" = none)
      (hresolve : deps.resolveTranscript si.session si.name = some transcript)
      (hread : deps.readTranscript transcript = some text) :
      WindowOf lib deps si transcript "time-window" text none (some (skewFloor lib si))

structure SliceOf (text : List Char) (minOffset : Option Nat) (front slice : List Char) : Prop where
  text_eq : text = front ++ slice
  length : (encodeUtf8 front).length = windowStart text minOffset

theorem eq_of_append_eq {front front' slice slice' : List Char} (h : front ++ slice = front' ++ slice')
    (hlen : (encodeUtf8 front).length = (encodeUtf8 front').length) :
    front = front' ∧ slice = slice' := by
  have hnil : ∀ more : List Char, (encodeUtf8 more).length = 0 → more = [] := by
    intro more hmore
    apply encodeUtf8_injective
    rw [List.length_eq_zero_iff.mp hmore, encodeUtf8_nil]
  have hfront : front = front' := by
    rcases List.append_eq_append_iff.mp h with ⟨more, rfl, -⟩ | ⟨more, rfl, -⟩
    · rw [encodeUtf8_append, List.length_append] at hlen
      rw [hnil more (by omega), List.append_nil]
    · rw [encodeUtf8_append, List.length_append] at hlen
      rw [hnil more (by omega), List.append_nil]
  subst hfront
  exact ⟨rfl, List.append_cancel_left h⟩

theorem searchRead_of_window {contentSha transcript attribution : String} {minOffset : Option Nat}
    {front : List Char} (hsha : (Json.obj si.obj).strField "content_sha256" = some contentSha)
    (hwindow : WindowOf lib deps si transcript attribution text minOffset tsFloor)
    (hslice : SliceOf text minOffset front slice) :
    searchRead lib deps si = some (searchVerdict lib si contentSha transcript attribution
      (candidatesFrom lib tsFloor (slice.splitOn '\n') (encodeUtf8 front).length 0)) := by
  obtain ⟨front', slice', htext, hlen, hsome⟩ := exists_slice text minOffset
  obtain ⟨rfl, rfl⟩ := eq_of_append_eq (htext.symm.trans hslice.text_eq)
    (hlen.trans hslice.length.symm)
  cases hwindow with
  | offset ht ho hread =>
      simp only [searchRead, hsha, buildWindow, ht, ho, hread, Option.bind_eq_bind, Option.bind_some,
        windowCandidates, extractCandidates_eq hsome hlen]
  | time hno hresolve hread =>
      have hbuild : buildWindow deps si = some (.timeWindow transcript text) := by
        unfold buildWindow
        split
        · rename_i ht ho
          rcases hno with h | h
          · rw [h] at ht
            cases ht
          · rw [h] at ho
            cases ho
        · simp only [hresolve, hread, Option.bind_eq_bind, Option.bind_some]
      simp only [searchRead, hsha, hbuild, Option.bind_eq_bind, Option.bind_some,
        windowCandidates, extractCandidates_eq hsome hlen]

theorem buildWindow_cases (lib : RecoveryLib) (deps : RecoveryDeps) (si : EventRecord) :
    buildWindow deps si = none ∨ ∃ transcript attribution text minOffset tsFloor,
      WindowOf lib deps si transcript attribution text minOffset tsFloor := by
  cases hbuild : buildWindow deps si with
  | none => exact .inl rfl
  | some window =>
      right
      unfold buildWindow at hbuild
      split at hbuild
      · rename_i t o ht ho
        obtain ⟨text, hread, -⟩ := Option.bind_eq_some_iff.mp hbuild
        exact ⟨_, _, _, _, _, .offset ht ho hread⟩
      · rename_i hno
        obtain ⟨t, hresolve, hbuild⟩ := Option.bind_eq_some_iff.mp hbuild
        obtain ⟨text, hread, -⟩ := Option.bind_eq_some_iff.mp hbuild
        refine ⟨_, _, _, _, _, .time ?_ hresolve hread⟩
        cases ht : (Json.obj si.obj).strField "transcript" with
        | none => exact .inl rfl
        | some t' =>
            cases ho : (Json.obj si.obj).u64Field "transcript_offset" with
            | none => exact .inr rfl
            | some o => exact absurd ho (hno t' o ht)

structure Searched (lib : RecoveryLib) (deps : RecoveryDeps) (si : EventRecord)
    (contentSha transcript attribution : String) (text : List Char) (minOffset : Option Nat)
    (tsFloor : Option Int) (front slice : List Char) : Prop where
  open_ : ∀ deps', recoveryRead lib deps' si = searchRead lib deps' si
  sha : (Json.obj si.obj).strField "content_sha256" = some contentSha
  window : WindowOf lib deps si transcript attribution text minOffset tsFloor
  slice : SliceOf text minOffset front slice

theorem recoveryRead_cases (lib : RecoveryLib) (deps : RecoveryDeps) (si : EventRecord) :
    (∃ v, recoveryRead lib deps si = some v ∧
        ((∃ sendPath, v = .receiptClosed sendPath) ∨ v = .unattributable ∨ v = .sourceUnavailable)) ∨
      ∃ contentSha transcript attribution text minOffset tsFloor front slice,
        Searched lib deps si contentSha transcript attribution text minOffset tsFloor front slice := by
  have hread : (∃ sendPath, recoveryRead lib deps si = some (.receiptClosed sendPath)) ∨
      ∀ deps', recoveryRead lib deps' si = searchRead lib deps' si := by
    unfold recoveryRead
    split
    · split
      · exact .inl ⟨_, rfl⟩
      · exact .inr fun _ => rfl
    · exact .inr fun _ => rfl
  rcases hread with ⟨sendPath, hclosed⟩ | hread
  · exact .inl ⟨_, hclosed, .inl ⟨sendPath, rfl⟩⟩
  cases hsha : (Json.obj si.obj).strField "content_sha256" with
  | none => exact .inl ⟨.unattributable, by simp only [hread, searchRead, hsha], .inr (.inl rfl)⟩
  | some contentSha =>
      rcases buildWindow_cases lib deps si with hnone | ⟨transcript, attribution, text, minOffset,
        tsFloor, hwindow⟩
      · exact .inl ⟨.sourceUnavailable, by simp only [hread, searchRead, hsha, hnone],
          .inr (.inr rfl)⟩
      · obtain ⟨front, slice, htext, hlen, -⟩ := exists_slice text minOffset
        exact .inr ⟨contentSha, transcript, attribution, text, minOffset, tsFloor, front, slice,
          hread, hsha, hwindow, htext, hlen⟩

theorem Searched.recoveryRead {contentSha transcript attribution : String} {minOffset : Option Nat}
    {front : List Char}
    (h : Searched lib deps si contentSha transcript attribution text minOffset tsFloor front slice) :
    recoveryRead lib deps si = some (searchVerdict lib si contentSha transcript attribution
      (candidatesFrom lib tsFloor (slice.splitOn '\n') (encodeUtf8 front).length 0)) :=
  (h.open_ deps).trans (searchRead_of_window h.sha h.window h.slice)

/-! ### A transcript that grows -/

theorem toCharBoundary_append {bytes more : Bytes} {left left' start : Nat} (hleft : left ≤ left')
    (hsum : start + left = bytes.length) (h : toCharBoundary bytes left start < bytes.length) :
    toCharBoundary (bytes ++ more) left' start = toCharBoundary bytes left start := by
  induction left generalizing left' start with
  | zero =>
      rw [toCharBoundary] at h
      omega
  | succ left ih =>
      obtain ⟨rest, rfl⟩ : ∃ rest, left' = rest + 1 := ⟨left' - 1, by omega⟩
      have hsame : charBoundary (bytes ++ more) start = charBoundary bytes start := by
        rw [charBoundary, charBoundary, List.getElem?_append_left (by omega)]
      rw [toCharBoundary, toCharBoundary, hsame]
      rw [toCharBoundary] at h
      split
      · rfl
      · rename_i hno
        rw [if_neg hno] at h
        exact ih (by omega) (by omega) h

theorem windowStart_append {minOffset : Option Nat} (more : List Char)
    (h : windowStart text minOffset < (encodeUtf8 text).length) :
    windowStart (text ++ more) minOffset = windowStart text minOffset := by
  cases minOffset with
  | none => rfl
  | some o =>
      have hle := (windowStart_spec text (some o)).2.2 o rfl
      have ho : o < (encodeUtf8 text).length := by omega
      have hlen : (encodeUtf8 (text ++ more)).length =
          (encodeUtf8 text).length + (encodeUtf8 more).length := by
        rw [encodeUtf8_append, List.length_append]
      simp only [windowStart] at h ⊢
      rw [Nat.min_eq_left ho.le] at h
      rw [hlen, Nat.min_eq_left ho.le, Nat.min_eq_left (by omega : o ≤ _ + _), encodeUtf8_append]
      exact toCharBoundary_append (by omega) (by omega) h

theorem SliceOf.start_lt {minOffset : Option Nat} {front : List Char}
    (h : SliceOf text minOffset front slice) (hne : slice ≠ []) :
    windowStart text minOffset < (encodeUtf8 text).length := by
  have hpos : 0 < (encodeUtf8 slice).length := by
    apply Nat.pos_of_ne_zero
    intro hzero
    exact hne (encodeUtf8_injective ((List.length_eq_zero_iff.mp hzero).trans encodeUtf8_nil.symm))
  rw [← h.length, h.text_eq, encodeUtf8_append, List.length_append]
  omega

theorem SliceOf.append {minOffset : Option Nat} {front : List Char}
    (h : SliceOf text minOffset front slice) (hne : slice ≠ []) (more : List Char) :
    SliceOf (text ++ more) minOffset front (slice ++ more) := by
  refine ⟨by rw [h.text_eq, List.append_assoc], ?_⟩
  rw [h.length, windowStart_append more (h.start_lt hne)]

theorem WindowOf.lengthen {deps' : RecoveryDeps} {transcript attribution : String} {text' : List Char}
    {minOffset : Option Nat} (h : WindowOf lib deps si transcript attribution text minOffset tsFloor)
    (hresolve : deps'.resolveTranscript = deps.resolveTranscript)
    (hread : deps'.readTranscript transcript = some text') :
    WindowOf lib deps' si transcript attribution text' minOffset tsFloor := by
  cases h with
  | offset ht ho _ => exact .offset ht ho hread
  | time hno ht _ => exact .time hno (by rw [hresolve, ht]) hread

theorem splitOn_append_of_line {before after : List (List Char)} {line more : List Char}
    (hsplit : slice.splitOn '\n' = before ++ line :: after) :
    ∃ line' after', (slice ++ more).splitOn '\n' = before ++ line' :: after' := by
  obtain ⟨closed, tail, hclosed, happend⟩ := exists_splitOn_append '\n' slice
  obtain ⟨first, others, hmore⟩ := List.exists_cons_of_ne_nil (List.splitOn_ne_nil '\n' more)
  rw [happend more first others hmore]
  rcases List.eq_nil_or_concat after with rfl | ⟨start, last, rfl⟩
  · obtain ⟨rfl, -⟩ := List.append_inj' (hsplit.symm.trans hclosed) rfl
    exact ⟨_, _, rfl⟩
  · rw [List.concat_eq_append, ← List.cons_append, ← List.append_assoc] at hsplit
    obtain ⟨rfl, -⟩ := List.append_inj' (hsplit.symm.trans hclosed) rfl
    exact ⟨line, _, by rw [List.append_assoc, List.cons_append]⟩

theorem prefix_of_closed {line line' rest rest' : List Char} (h : line ++ rest = line' ++ rest')
    (hline : '\n' ∉ line) (hrest' : rest' = [] ∨ rest'.head? = some '\n') : line <+: line' := by
  rcases List.append_eq_append_iff.mp h with ⟨mid, rfl, -⟩ | ⟨mid, rfl, rfl⟩
  · exact List.prefix_append _ _
  · cases mid with
    | nil => rw [List.append_nil]
    | cons c mid =>
        rcases hrest' with hnil | hhead
        · cases hnil
        · obtain rfl : c = '\n' := Option.some.inj hhead
          exact absurd (List.mem_append_right line' List.mem_cons_self) hline

theorem LineOf.lengthened {front line line' more : List Char} (h : LineOf slice front line)
    (h' : LineOf (slice ++ more) front line') :
    line <+: line' ∧ ((∃ rest, slice = front ++ line ++ '\n' :: rest) → line' = line) := by
  obtain ⟨-, hline, rest, hslice, -⟩ := h
  obtain ⟨-, hline', rest', happend, hrest'⟩ := h'
  have heq : line ++ (rest ++ more) = line' ++ rest' := by
    rw [hslice, List.append_assoc, List.append_assoc, List.append_assoc] at happend
    exact List.append_cancel_left happend
  have hbegin := prefix_of_closed heq hline hrest'
  refine ⟨hbegin, ?_⟩
  rintro ⟨closed, hclosed⟩
  obtain rfl : rest = '\n' :: closed := by
    rw [hslice] at hclosed
    exact List.append_cancel_left hclosed
  exact (prefix_of_closed heq.symm hline' (.inr rfl)).eq_of_length_le hbegin.length_le

/-- What a line shows depends on its value. -/
theorem lineText_lengthened {line line' : List Char} {t : String} (hbegin : line <+: line')
    (hsame : lib.serde.fromStr line' = lib.serde.fromStr line)
    (h : lineText lib tsFloor line = some t) : lineText lib tsFloor line' = some t := by
  obtain ⟨more, rfl⟩ := hbegin
  unfold lineText at h ⊢
  split at h
  · cases h
  · rename_i hblank
    rw [if_neg (by rw [isBlank_append (Bool.eq_false_iff.mpr hblank)]; exact Bool.false_ne_true), ← h]
    simp only [candidateText, parseLine, ParsedLine.userText, hsame]

/-! ### The verdicts -/

theorem searchVerdict_anchored_iff {contentSha transcript attribution attribution' : String}
    {anchor : DeliveryEvents.Anchor} {lines : List (List Char)} :
    searchVerdict lib si contentSha transcript attribution
        (candidatesFrom lib tsFloor lines cursor lineIndex) = .anchored anchor attribution' ↔
      attribution' = attribution ∧ ∃ before line t,
        FirstLine lib tsFloor (fun t => lib.sha256Hex (encodeUtf8 t.toList) == contentSha) lines
          before line t ∧
        anchor = ⟨transcript, .ofNat (cursor + linesLen before),
          .ofNat (lineIndex + (before.filter (!isBlank ·)).length)⟩ := by
  have hfind := fun c => @find?_candidatesFrom_iff lib tsFloor cursor lineIndex
    (fun t => lib.sha256Hex (encodeUtf8 t.toList) == contentSha) lines c
  unfold searchVerdict
  cases hcand : (candidatesFrom lib tsFloor lines cursor lineIndex).find? fun c =>
      lib.sha256Hex (encodeUtf8 c.text.toList) == contentSha with
  | some c =>
      have hne : (candidatesFrom lib tsFloor lines cursor lineIndex).isEmpty = false := by
        rw [List.isEmpty_eq_false_iff]
        intro hnil
        rw [hnil] at hcand
        cases hcand
      obtain ⟨before, line, hfirst, hoffset, hindex⟩ := (hfind c).mp hcand
      simp only [hne, Bool.false_eq_true, if_false, RecoveryVerdict.anchored.injEq]
      constructor
      · rintro ⟨rfl, rfl⟩
        exact ⟨rfl, before, line, c.text, hfirst, by rw [hoffset, hindex]⟩
      · rintro ⟨rfl, before', line', t', hfirst', rfl⟩
        have hsame := (hfind ⟨t', _, _⟩).mpr ⟨before', line', hfirst', rfl, rfl⟩
        rw [hcand] at hsame
        obtain rfl := Option.some.inj hsame
        exact ⟨rfl, rfl⟩
  | none =>
      constructor
      · intro h
        split at h
        · cases h
        · simp only at h
          split at h <;> cases h
      · rintro ⟨-, before, line, t, hfirst, -⟩
        have hsome := (hfind ⟨t, _, _⟩).mpr ⟨before, line, hfirst, rfl, rfl⟩
        rw [hcand] at hsome
        cases hsome

/-! ### What the verdicts say -/

/-- A line that shows a text: a user record, and not one that is older than the floor. -/
structure UserRecord (lib : RecoveryLib) (tsFloor : Option Int) (line : List Char) (t : String) :
    Prop where
  notBlank : isBlank line = false
  userText : (parseLine lib.serde line).userText = some t
  notOlder : ∀ floor, tsFloor = some floor → ∀ ts,
    (parseLine lib.serde line).value.strField "timestamp" = some ts →
      ∀ ms, timestampMs lib ts.toList = some ms → floor ≤ ms

theorem lineText_eq_some_iff {line : List Char} {t : String} :
    lineText lib tsFloor line = some t ↔ UserRecord lib tsFloor line t := by
  unfold lineText
  cases hblank : isBlank line with
  | true =>
      rw [if_pos rfl]
      constructor
      · intro h
        cases h
      · rintro ⟨hno, -, -⟩
        cases hblank.symm.trans hno
  | false =>
      rw [if_neg Bool.false_ne_true, candidateText, Option.bind_eq_bind, Option.bind_eq_some_iff]
      constructor
      · rintro ⟨text, htext, h⟩
        cases tsFloor with
        | none =>
            obtain rfl := Option.some.inj h
            exact ⟨hblank, htext, fun floor hfloor => by cases hfloor⟩
        | some floor =>
            simp only at h
            have hsame : text = t := by
              split at h
              · split at h
                · cases h
                · exact Option.some.inj h
              · exact Option.some.inj h
            subst hsame
            refine ⟨hblank, htext, ?_⟩
            intro floor' hfloor ts hts ms hms
            obtain rfl := Option.some.inj hfloor
            rw [hts, Option.bind_some, hms] at h
            simp only at h
            split at h
            · cases h
            · omega
      · rintro ⟨-, htext, hnot⟩
        refine ⟨t, htext, ?_⟩
        cases tsFloor with
        | none => rfl
        | some floor =>
            simp only
            split
            · rename_i ms hms
              obtain ⟨ts, hts, hms⟩ := Option.bind_eq_some_iff.mp hms
              rw [if_neg (not_lt.mpr (hnot floor rfl ts hts ms hms))]
            · rfl

theorem parseJsonlSlice_getElem? {before after : List (List Char)} {line : List Char}
    (hsplit : slice.splitOn '\n' = before ++ line :: after) (hblank : isBlank line = false) :
    (parseJsonlSlice lib.serde slice)[(before.filter (!isBlank ·)).length]? =
      some (parseLine lib.serde line) := by
  rw [parseJsonlSlice, hsplit, List.filter_append, List.filter_cons_of_pos (by simp [hblank]),
    List.map_append, List.getElem?_append_right (by simp), List.length_map, Nat.sub_self,
    List.map_cons, List.getElem?_cons_zero]

theorem bestTruncated_spec {contentLen matched : Nat} {chunkShas : List String}
    {candidates : List Candidate} {c : Candidate}
    (h : bestTruncated lib contentLen chunkShas candidates = some (c, matched)) :
    c ∈ candidates ∧ textLen c.text < contentLen ∧
      1 ≤ matchedFullChunkPrefix lib c.text chunkShas := by
  let Good := fun best : Option (Candidate × Nat) => ∀ b bm, best = some (b, bm) →
    b ∈ candidates ∧ textLen b.text < contentLen ∧ 1 ≤ matchedFullChunkPrefix lib b.text chunkShas
  have hfold : Good (bestTruncated lib contentLen chunkShas candidates) := by
    have hnone : Good none := fun b bm hb => by cases hb
    refine @List.foldlRecOn _ _ Good candidates _ _ hnone ?_
    intro best hbest head hhead b bm hb
    simp only at hb
    split at hb
    · exact hbest b bm hb
    · rename_i hshort
      split at hb
      · rename_i hmatched
        split at hb
        · split at hb
          · exact hbest b bm hb
          · obtain ⟨rfl, -⟩ := Prod.mk.inj (Option.some.inj hb)
            exact ⟨hhead, not_le.mp hshort, hmatched⟩
        · obtain ⟨rfl, -⟩ := Prod.mk.inj (Option.some.inj hb)
          exact ⟨hhead, not_le.mp hshort, hmatched⟩
      · exact hbest b bm hb
  exact hfold c matched h

theorem exists_first_chunk {t : String} {chunkShas : List String}
    (h : 1 ≤ matchedFullChunkPrefix lib t chunkShas) :
    ∃ chunk chunks shas, chunkText t.toList chunkBytes = chunk :: chunks ∧
      chunkBytes ≤ (encodeUtf8 chunk).length ∧
        chunkShas = lib.sha256Hex (encodeUtf8 chunk) :: shas := by
  rw [matchedFullChunkPrefix] at h
  cases hchunks : chunkText t.toList chunkBytes with
  | nil =>
      rw [hchunks, matchedFrom] at h
      · cases h
      · rintro - - - - ⟨⟩
  | cons chunk chunks =>
      cases chunkShas with
      | nil =>
          rw [hchunks, matchedFrom] at h
          · cases h
          · rintro - - - - - ⟨⟩
      | cons expected shas =>
          rw [hchunks, matchedFrom] at h
          split at h
          · cases h
          · rename_i hfull
            split at h
            · rename_i hsha
              exact ⟨chunk, chunks, shas, rfl, not_lt.mp hfull, by rw [hsha]⟩
            · cases h

end QuorumDispatch.Transcript
