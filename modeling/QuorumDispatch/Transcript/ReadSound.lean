import QuorumDispatch.Transcript.Search
import QuorumDispatch.Transcript.Wait

/-!
Soundness of the recovery read. It always has a verdict; an anchor is the first user record with
the content among the lines that are searched, and stays it however the transcript grows, unless the
anchored line itself is still being written and comes to read as another value.
-/

namespace QuorumDispatch.Transcript

open Lib
open DeliveryEvents (Anchor EventRecord RecoveryVerdict)
open Pty (chunkText chunkBytes)

variable {lib : RecoveryLib} {deps : RecoveryDeps} {si : EventRecord} {text slice : List Char}
  {tsFloor : Option Int}

/-- What is searched lies behind the offset, or is the whole text where there is none. -/
structure SliceOf.Behind (minOffset : Option Nat) (front : List Char) : Prop where
  offset : ∀ o, minOffset = some o → o ≤ (encodeUtf8 front).length
  all : minOffset = none → front = []

theorem SliceOf.behind {minOffset : Option Nat} {front : List Char}
    (h : SliceOf text minOffset front slice) (hne : slice ≠ []) : SliceOf.Behind minOffset front := by
  have hlt := h.start_lt hne
  refine ⟨fun o ho => ?_, fun hnone => ?_⟩
  · have hle := (windowStart_spec text minOffset).2.2 o ho
    rw [h.length]
    omega
  · have hzero := h.length
    rw [hnone, windowStart, List.length_eq_zero_iff] at hzero
    exact encodeUtf8_injective (hzero.trans encodeUtf8_nil.symm)

/-- A transcript that has grown, and whose line behind `before` is closed or reads as it did. -/
structure Grown (lib : RecoveryLib) (deps deps' : RecoveryDeps) (transcript : String)
    (text slice before line : List Char) : Prop where
  resolve : deps'.resolveTranscript = deps.resolveTranscript
  read : ∃ more, deps'.readTranscript transcript = some (text ++ more) ∧
    ((∃ rest, slice = before ++ line ++ '\n' :: rest) ∨
      ∀ line', LineOf (slice ++ more) before line' →
        lib.serde.fromStr line' = lib.serde.fromStr line)

structure AnchorSound (lib : RecoveryLib) (deps : RecoveryDeps) (si : EventRecord) (anchor : Anchor)
    (attribution contentSha : String) (text : List Char) (minOffset : Option Nat)
    (tsFloor : Option Int) (front slice before line : List Char) : Prop where
  searched : Searched lib deps si contentSha anchor.transcript attribution text minOffset tsFloor
    front slice
  behind : SliceOf.Behind minOffset front
  startOffset : anchor.startOffset = .ofNat (encodeUtf8 (front ++ before)).length
  isLine : LineOf slice before line
  lineOfText : front = [] ∨ front.getLast? = some '\n' → LineOf text (front ++ before) line
  lineIndex : ∃ k, anchor.lineIndex = .ofNat k ∧
    (parseJsonlSlice lib.serde slice)[k]? = some (parseLine lib.serde line)
  shows : ∃ t, UserRecord lib tsFloor line t ∧ lib.sha256Hex (encodeUtf8 t.toList) = contentSha
  first : ∀ before' line' t, LineOf slice before' line' → before'.length < before.length →
    UserRecord lib tsFloor line' t → lib.sha256Hex (encodeUtf8 t.toList) ≠ contentSha
  stable : ∀ deps', Grown lib deps deps' anchor.transcript text slice before line →
    recoveryRead lib deps' si = some (.anchored anchor attribution)

/-- The record's hashes are those of the first chunks of a message, and its length is the message's. -/
structure Describes (lib : RecoveryLib) (si : EventRecord) (message : List Char) : Prop where
  contentLen : contentLenOf si = (encodeUtf8 message).length
  chunkShas : chunkShasOf si <+:
    (chunkText message chunkBytes).map fun chunk => lib.sha256Hex (encodeUtf8 chunk)

def SharesChunk (t message : List Char) : Prop :=
  ∃ chunk rest rest', chunkText t chunkBytes = chunk :: rest ∧
    chunkText message chunkBytes = chunk :: rest' ∧ chunkBytes ≤ (encodeUtf8 chunk).length

structure TruncatedSound (lib : RecoveryLib) (deps : RecoveryDeps) (si : EventRecord)
    (expectedLen actualLen : UInt64) (actualSha attribution contentSha transcript : String)
    (text : List Char) (minOffset : Option Nat) (tsFloor : Option Int)
    (front slice before line : List Char) (t : String) : Prop where
  searched : Searched lib deps si contentSha transcript attribution text minOffset tsFloor front slice
  isLine : LineOf slice before line
  userRecord : UserRecord lib tsFloor line t
  reported : expectedLen = .ofNat (contentLenOf si) ∧ actualLen = .ofNat (textLen t) ∧
    actualSha = lib.sha256Hex (encodeUtf8 t.toList)
  shorter : textLen t < contentLenOf si
  sharesChunk : ∀ message, Function.Injective lib.sha256Hex → Describes lib si message →
    SharesChunk t.toList message
  noMatch : ∀ before' line' t', LineOf slice before' line' → UserRecord lib tsFloor line' t' →
    lib.sha256Hex (encodeUtf8 t'.toList) ≠ contentSha

/-! ### The three verdicts -/

theorem sharesChunk_of_matched {t : String} {message : List Char}
    (hinj : Function.Injective lib.sha256Hex) (hdesc : Describes lib si message)
    (h : 1 ≤ matchedFullChunkPrefix lib t (chunkShasOf si)) : SharesChunk t.toList message := by
  obtain ⟨chunk, rest, shas, htext, hfull, hshas⟩ := exists_first_chunk h
  have hbegin := hdesc.chunkShas
  rw [hshas] at hbegin
  cases hchunks : chunkText message chunkBytes with
  | nil =>
      rw [hchunks] at hbegin
      cases List.prefix_nil.mp hbegin
  | cons chunk' rest' =>
      rw [hchunks, List.map_cons, List.cons_prefix_cons] at hbegin
      obtain rfl : chunk = chunk' := encodeUtf8_injective (hinj hbegin.1)
      exact ⟨chunk, rest, rest', htext, hchunks, hfull⟩

theorem exists_line_of_mem {c : Candidate} {cursor lineIndex : Nat}
    (hc : c ∈ candidatesFrom lib tsFloor (slice.splitOn '\n') cursor lineIndex) :
    ∃ before line, LineOf slice before line ∧ UserRecord lib tsFloor line c.text := by
  have htext := List.mem_map_of_mem (f := Candidate.text) hc
  rw [map_text_candidatesFrom, List.mem_filterMap] at htext
  obtain ⟨line, hline, hshows⟩ := htext
  obtain ⟨before, after, hsplit⟩ := List.append_of_mem hline
  exact ⟨_, line, lineOf_iff.mpr ⟨before, after, hsplit, rfl⟩, lineText_eq_some_iff.mp hshows⟩

theorem exists_mem_of_line {before line : List Char} {t : String} {cursor lineIndex : Nat}
    (hline : LineOf slice before line) (hrecord : UserRecord lib tsFloor line t) :
    ∃ c ∈ candidatesFrom lib tsFloor (slice.splitOn '\n') cursor lineIndex, c.text = t := by
  obtain ⟨before, after, hsplit, rfl⟩ := lineOf_iff.mp hline
  have htext : t ∈ (slice.splitOn '\n').filterMap (lineText lib tsFloor) :=
    List.mem_filterMap.mpr ⟨line, by rw [hsplit]; exact List.mem_append_right _ List.mem_cons_self,
      lineText_eq_some_iff.mpr hrecord⟩
  rw [← map_text_candidatesFrom] at htext
  exact List.mem_map.mp htext

theorem LineOf.behind {front before line : List Char} (htext : text = front ++ slice)
    (hfront : front = [] ∨ front.getLast? = some '\n') (h : LineOf slice before line) :
    LineOf text (front ++ before) line := by
  obtain ⟨hbegins, hline, rest, rfl, hrest⟩ := h
  refine ⟨?_, hline, rest, by rw [htext, ← List.append_assoc, ← List.append_assoc], hrest⟩
  rcases hbegins with rfl | hlast
  · rwa [List.append_nil]
  · exact .inr (by rw [List.getLast?_append, hlast, Option.some_or])

theorem LineOf.ne_nil {before line : List Char} (h : LineOf slice before line)
    (hblank : isBlank line = false) : slice ≠ [] := by
  rintro rfl
  obtain ⟨rest, hnil, -⟩ := h.ends
  rw [eq_comm, List.append_eq_nil_iff, List.append_eq_nil_iff] at hnil
  rw [hnil.1.2] at hblank
  cases hblank

variable {contentSha transcript attribution : String} {minOffset : Option Nat} {front : List Char}

theorem anchorSound_of_anchored {anchor : Anchor} {attribution' : String}
    (hsearched : Searched lib deps si contentSha transcript attribution text minOffset tsFloor front
      slice)
    (hread : recoveryRead lib deps si = some (.anchored anchor attribution')) :
    ∃ before line, AnchorSound lib deps si anchor attribution' contentSha text minOffset tsFloor front
      slice before line := by
  obtain ⟨rfl, before, line, t, hfirst, rfl⟩ :=
    searchVerdict_anchored_iff.mp (Option.some.inj (hsearched.recoveryRead.symm.trans hread))
  obtain ⟨⟨after, hsplit⟩, hanchor⟩ := anchorLine_iff.mp ⟨t, hfirst⟩
  have hrecord := lineText_eq_some_iff.mp hfirst.shows
  have hne := hanchor.isLine.ne_nil hrecord.notBlank
  refine ⟨before.flatMap (· ++ ['\n']), line, hsearched, hsearched.slice.behind hne, ?_,
    hanchor.isLine, fun hfront => hanchor.isLine.behind hsearched.slice.text_eq hfront,
    ⟨_, rfl, ?_⟩, ⟨t, hrecord, beq_iff_eq.mp hfirst.matches_⟩, ?_, ?_⟩
  · rw [encodeUtf8_append, List.length_append, linesLen]
  · rw [Nat.zero_add]
    exact parseJsonlSlice_getElem? hsplit hrecord.notBlank
  · intro before' line' t' hline' hlt hrecord'
    exact hanchor.first before' line' hline' hlt t' (lineText_eq_some_iff.mpr hrecord')
  · rintro deps' ⟨hresolve, more, hmore, hlasts⟩
    obtain ⟨line', after', hsplit'⟩ := @splitOn_append_of_line _ _ _ _ more hsplit
    have hline' := lineOf_iff.mpr ⟨before, after', hsplit', rfl⟩
    obtain ⟨hbegin, hclosed⟩ := hanchor.isLine.lengthened hline'
    have hsame : lib.serde.fromStr line' = lib.serde.fromStr line := by
      rcases hlasts with hrest | hsame
      · rw [hclosed hrest]
      · exact hsame line' hline'
    have hgrown : Searched lib deps' si contentSha transcript attribution' (text ++ more) minOffset
        tsFloor front (slice ++ more) :=
      ⟨fun deps'' => hsearched.open_ deps'', hsearched.sha, hsearched.window.lengthen hresolve hmore,
        hsearched.slice.append hne more⟩
    rw [hgrown.recoveryRead, Option.some.injEq, searchVerdict_anchored_iff]
    -- the lines in front of the anchored one are those of before
    exact ⟨rfl, before, line', t, ⟨⟨after', hsplit'⟩, lineText_lengthened hbegin hsame hfirst.shows,
      hfirst.matches_, hfirst.first⟩, rfl⟩

theorem truncatedSound_of_truncated {expectedLen actualLen : UInt64} {actualSha attribution' : String}
    (hsearched : Searched lib deps si contentSha transcript attribution text minOffset tsFloor front
      slice)
    (hread : recoveryRead lib deps si =
      some (.truncated expectedLen actualLen actualSha attribution')) :
    ∃ before line t, TruncatedSound lib deps si expectedLen actualLen actualSha attribution'
      contentSha transcript text minOffset tsFloor front slice before line t := by
  have hverdict := Option.some.inj (hsearched.recoveryRead.symm.trans hread)
  unfold searchVerdict at hverdict
  split at hverdict
  · cases hverdict
  split at hverdict
  · cases hverdict
  rename_i hnone
  split at hverdict
  · rename_i c matched hbest
    obtain ⟨rfl, rfl, rfl, rfl⟩ := RecoveryVerdict.truncated.inj hverdict
    obtain ⟨hc, hshort, hmatched⟩ := bestTruncated_spec hbest
    obtain ⟨before, line, hline, hrecord⟩ := exists_line_of_mem hc
    refine ⟨before, line, c.text, hsearched, hline, hrecord, ⟨rfl, rfl, rfl⟩, hshort,
      fun message hinj hdesc => sharesChunk_of_matched hinj hdesc hmatched, ?_⟩
    intro before' line' t' hline' hrecord' hsha
    obtain ⟨c', hc', rfl⟩ :=
      @exists_mem_of_line lib slice tsFloor _ _ _ (encodeUtf8 front).length 0 hline' hrecord'
    exact List.find?_eq_none.mp hnone c' hc' (beq_iff_eq.mpr hsha)
  · cases hverdict

theorem exists_line_of_abandoned {attribution' : String}
    (hsearched : Searched lib deps si contentSha transcript attribution text minOffset tsFloor front
      slice)
    (hread : recoveryRead lib deps si = some (.abandoned attribution')) :
    attribution' = attribution ∧
      ∃ before line t, LineOf slice before line ∧ UserRecord lib tsFloor line t := by
  have hverdict := Option.some.inj (hsearched.recoveryRead.symm.trans hread)
  unfold searchVerdict at hverdict
  split at hverdict
  · cases hverdict
  rename_i hne
  split at hverdict
  · cases hverdict
  split at hverdict
  · cases hverdict
  · obtain ⟨c, hc⟩ := List.exists_mem_of_ne_nil _ (fun hnil => hne (List.isEmpty_iff.mpr hnil))
    obtain ⟨before, line, hline, hrecord⟩ := exists_line_of_mem hc
    exact ⟨(RecoveryVerdict.abandoned.inj hverdict).symm, before, line, c.text, hline, hrecord⟩

/-- The read has a verdict for every record and transcript, and each verdict is backed by a line of
what it searched. -/
theorem recoveryRead_sound (lib : RecoveryLib) (deps : RecoveryDeps) (si : EventRecord) :
    ∃ v, recoveryRead lib deps si = some v ∧
      (∀ anchor attribution, v = .anchored anchor attribution →
        ∃ contentSha text minOffset tsFloor front slice before line,
          AnchorSound lib deps si anchor attribution contentSha text minOffset tsFloor front slice
            before line) ∧
      (∀ expectedLen actualLen actualSha attribution,
        v = .truncated expectedLen actualLen actualSha attribution →
          ∃ contentSha transcript text minOffset tsFloor front slice before line t,
            TruncatedSound lib deps si expectedLen actualLen actualSha attribution contentSha
              transcript text minOffset tsFloor front slice before line t) ∧
      ∀ attribution, v = .abandoned attribution →
        ∃ contentSha transcript text minOffset tsFloor front slice before line t,
          Searched lib deps si contentSha transcript attribution text minOffset tsFloor front slice ∧
            LineOf slice before line ∧ UserRecord lib tsFloor line t := by
  rcases recoveryRead_cases lib deps si with ⟨v, hv, hkind⟩ | ⟨contentSha, transcript, attribution,
    text, minOffset, tsFloor, front, slice, hsearched⟩
  · refine ⟨v, hv, ?_, ?_, ?_⟩
    all_goals
      intros
      rcases hkind with ⟨sendPath, rfl⟩ | rfl | rfl
      all_goals contradiction
  · refine ⟨_, hsearched.recoveryRead, ?_, ?_, ?_⟩
    · intro anchor attribution' h
      obtain ⟨before, line, hsound⟩ :=
        anchorSound_of_anchored hsearched (hsearched.recoveryRead.trans (congrArg some h))
      exact ⟨_, _, _, _, _, _, before, line, hsound⟩
    · intro expectedLen actualLen actualSha attribution' h
      obtain ⟨before, line, t, hsound⟩ :=
        truncatedSound_of_truncated hsearched (hsearched.recoveryRead.trans (congrArg some h))
      exact ⟨_, _, _, _, _, _, _, before, line, t, hsound⟩
    · intro attribution' h
      obtain ⟨rfl, before, line, t, hline⟩ :=
        exists_line_of_abandoned hsearched (hsearched.recoveryRead.trans (congrArg some h))
      exact ⟨_, _, _, _, _, _, _, before, line, t, hsearched, hline⟩

/-! ### One message, an offset inside a line, and a line that is lengthened -/

/-- A library that reads one record, and whose hashes differ where the bytes do. -/
def recordLib : RecoveryLib where
  serde := .knowing [userLine "hi"]
  sha256Hex bytes :=
    if bytes = [104, 105] then "8f434346648f6b96df89dda901c5176b10a6d83961dd3c1ac88b59b2dc327aa4"
    else String.ofList ('x' :: bytes.map Char.ofUInt8)
  overflowed := fun _ => none

theorem ofUInt8_injective : Function.Injective Char.ofUInt8 := by
  intro b b' h
  have hval : b.toUInt32 = b'.toUInt32 := congrArg Char.val h
  rw [← UInt8.toNat_inj, ← UInt8.toNat_toUInt32, hval, UInt8.toNat_toUInt32]

theorem recordLib_injective : Function.Injective recordLib.sha256Hex := by
  have hhead : ∀ bytes : Bytes, String.ofList ('x' :: bytes.map Char.ofUInt8) ≠
      "8f434346648f6b96df89dda901c5176b10a6d83961dd3c1ac88b59b2dc327aa4" := by
    intro bytes h
    have hlist := congrArg String.toList h
    rw [String.toList_ofList] at hlist
    have height : "8f434346648f6b96df89dda901c5176b10a6d83961dd3c1ac88b59b2dc327aa4".toList.head? =
        some '8' := by decide
    rw [← hlist] at height
    exact absurd (Option.some.inj height) (by decide)
  intro bytes bytes' h
  simp only [recordLib] at h
  split at h
  · rename_i hbytes
    split at h
    · rename_i hbytes'
      rw [hbytes, hbytes']
    · exact absurd h.symm (hhead _)
  · split at h
    · exact absurd h (hhead _)
    · have hlist := congrArg String.toList h
      rw [String.toList_ofList, String.toList_ofList] at hlist
      exact ofUInt8_injective.list_map (List.cons.inj hlist).2

def transcriptDeps (text : List Char) : RecoveryDeps where
  readTranscript := fun _ => some text
  resolveTranscript := fun _ _ => none

/-- A send of two bytes, with the offset at which the transcript was then. -/
def hiSent (offset : Nat) : EventRecord where
  pid := 7
  seq := 1
  event := "send-initiated"
  ts := none
  session := none
  name := none
  obj := [("send_path", .str "pty"), ("content_len", .num 2),
    ("content_sha256", .str "8f434346648f6b96df89dda901c5176b10a6d83961dd3c1ac88b59b2dc327aa4"),
    ("transcript", .str "t.jsonl"), ("transcript_offset", .num offset)]

/-- The message is found, at the record with which the transcript begins. -/
theorem recoveryRead_hi :
    ∃ contentSha text minOffset tsFloor front slice before line,
      AnchorSound recordLib (transcriptDeps (userLine "hi").compact) (hiSent 0) ⟨"t.jsonl", 0, 0⟩
        "offset" contentSha text minOffset tsFloor front slice before line := by
  obtain ⟨v, hv, hanchored, -⟩ :=
    recoveryRead_sound recordLib (transcriptDeps (userLine "hi").compact) (hiSent 0)
  have hread : recoveryRead recordLib (transcriptDeps (userLine "hi").compact) (hiSent 0) =
      some (.anchored ⟨"t.jsonl", 0, 0⟩ "offset") := by decide
  exact hanchored _ _ (Option.some.inj (hv.symm.trans hread))

/-- What follows an offset inside a line is searched as though it were a line; and a line that counts
before its newline is written no longer does when more is written behind it. -/
theorem recoveryRead_midLine :
    (¬ ∀ (lib : RecoveryLib) (deps : RecoveryDeps) (si : EventRecord) (anchor : Anchor)
      (attribution : String) (text : List Char), Function.Injective lib.sha256Hex →
      recoveryRead lib deps si = some (.anchored anchor attribution) →
        deps.readTranscript anchor.transcript = some text →
          ∃ front line, LineOf text front line ∧
            anchor.startOffset = .ofNat (encodeUtf8 front).length) ∧
    ¬ ∀ (lib : RecoveryLib) (deps deps' : RecoveryDeps) (si : EventRecord) (anchor : Anchor)
      (attribution : String) (text more : List Char), Function.Injective lib.sha256Hex →
      recoveryRead lib deps si = some (.anchored anchor attribution) →
        deps.readTranscript anchor.transcript = some text →
          deps'.resolveTranscript = deps.resolveTranscript →
            deps'.readTranscript anchor.transcript = some (text ++ more) →
              recoveryRead lib deps' si = some (.anchored anchor attribution) := by
  constructor
  · intro h
    obtain ⟨front, line, hline, hoffset⟩ := h recordLib
      (transcriptDeps ('x' :: (userLine "hi").compact)) (hiSent 1) ⟨"t.jsonl", 1, 0⟩ "offset" _
      recordLib_injective (by decide) rfl
    -- the text is one line, which begins at its start
    have hfront : front = [] := by
      rcases hline.begins with hnil | hlast
      · exact hnil
      · obtain ⟨rest, htext, -⟩ := hline.ends
        have hmem : '\n' ∈ 'x' :: (userLine "hi").compact := by
          rw [htext, List.append_assoc]
          exact List.mem_append_left _ (List.mem_of_getLast? hlast)
        exact absurd hmem (by decide)
    subst hfront
    exact absurd hoffset (by decide)
  · intro h
    have hgrown := h recordLib (transcriptDeps (userLine "hi").compact)
      (transcriptDeps ((userLine "hi").compact ++ ['x'])) (hiSent 0) ⟨"t.jsonl", 0, 0⟩ "offset" _ ['x']
      recordLib_injective (by decide) rfl rfl rfl
    have hempty : recoveryRead recordLib (transcriptDeps ((userLine "hi").compact ++ ['x']))
        (hiSent 0) = some .emptyWindow := by decide
    cases hempty.symm.trans hgrown

end QuorumDispatch.Transcript
