import QuorumDispatch.DeliveryEvents.Ledger

/-!
The shrink belt. The preview stands last in a record, so that a longer one makes a longer line and
the search finds the longest that fits; the hashes of the chunks yield only when it is gone.
-/

namespace QuorumDispatch.DeliveryEvents

open Lib

/-! ### The search -/

section Search

variable {fits : Nat → Bool} {fuel lo hi : Nat}

theorem searchPreview_spec (hlt : lo < hi) (hfuel : hi - lo ≤ fuel + 1) (hhi : fits hi = false) :
    (searchPreview fits fuel lo hi = lo ∨ fits (searchPreview fits fuel lo hi) = true) ∧
      fits (searchPreview fits fuel lo hi + 1) = false := by
  induction fuel generalizing lo hi with
  | zero =>
      obtain rfl : hi = lo + 1 := by omega
      exact ⟨.inl rfl, hhi⟩
  | succ fuel ih =>
      rw [searchPreview]
      split
      · rename_i hgap
        simp only
        cases hmid : fits (lo + (hi - lo) / 2) with
        | true =>
            rw [if_pos rfl]
            obtain ⟨hfound, hnext⟩ := @ih (lo + (hi - lo) / 2) hi (by omega) (by omega) hhi
            refine ⟨?_, hnext⟩
            rcases hfound with heq | hfits
            · exact .inr (by rw [heq, hmid])
            · exact .inr hfits
        | false =>
            rw [if_neg Bool.false_ne_true]
            exact @ih lo (lo + (hi - lo) / 2) (by omega) (by omega) hmid
      · obtain rfl : hi = lo + 1 := by omega
        exact ⟨.inl rfl, hhi⟩

end Search

/-! ### Pieces of a preview -/

theorem utf8ByteSize_eq (s : String) : s.utf8ByteSize = (encodeUtf8 s.toList).length := by
  have hbytes : s.toByteArray = (encodeUtf8 s.toList).toByteArray := by
    rw [encodeUtf8_toByteArray, String.utf8Encode_toList]
  calc s.utf8ByteSize = s.toByteArray.size := rfl
    _ = (encodeUtf8 s.toList).length := by rw [hbytes, List.size_toByteArray]

theorem length_encodeUtf8_cons (c : Char) (cs : List Char) :
    (encodeUtf8 (c :: cs)).length = c.utf8Size + (encodeUtf8 cs).length := by
  rw [← List.singleton_append, encodeUtf8_append, List.length_append, encodeUtf8,
    List.flatMap_singleton, String.length_utf8EncodeChar]

theorem truncatePreviewBytes_begins (cs : List Char) (cap : Nat) :
    truncatePreviewBytes cs cap <+: cs := by
  induction cs generalizing cap with
  | nil => exact List.prefix_refl _
  | cons c cs ih =>
      rw [truncatePreviewBytes]
      split
      · exact (List.prefix_cons_inj c).mpr (ih _)
      · exact List.nil_prefix

theorem truncatePreviewBytes_mono (cs : List Char) {cap cap' : Nat} (h : cap ≤ cap') :
    truncatePreviewBytes cs cap <+: truncatePreviewBytes cs cap' := by
  induction cs generalizing cap cap' with
  | nil => exact List.prefix_refl _
  | cons c cs ih =>
      rw [truncatePreviewBytes, truncatePreviewBytes]
      split
      · rw [if_pos (by omega)]
        exact (List.prefix_cons_inj c).mpr (ih (by omega))
      · exact List.nil_prefix

theorem truncatePreviewBytes_length (p rest : List Char) :
    truncatePreviewBytes (p ++ rest) (encodeUtf8 p).length = p := by
  induction p with
  | nil =>
      cases rest with
      | nil => rfl
      | cons c rest =>
          have hpos := c.utf8Size_pos
          rw [List.nil_append, truncatePreviewBytes, encodeUtf8_nil, List.length_nil,
            if_neg (by omega)]
  | cons c p ih =>
      rw [List.cons_append, truncatePreviewBytes, length_encodeUtf8_cons, if_pos (by omega),
        Nat.add_sub_cancel_left, ih]

/-! ### The size of a line -/

def PrintsCompact (serde : SerdeJson) : Prop := ∀ j, serde.toString j = j.compact

theorem compactEntries_concat {entries : List (String × Json)} (h : entries ≠ []) (key : String)
    (j : Json) : Json.compactEntries (entries ++ [(key, j)]) =
      Json.compactEntries entries ++ ',' :: (Json.quote key ++ ':' :: j.compact) := by
  induction entries with
  | nil => exact absurd rfl h
  | cons entry entries ih =>
      obtain ⟨key', j'⟩ := entry
      cases entries with
      | nil => simp [Json.compactEntries]
      | cons next rest =>
          have hrest := ih (List.cons_ne_nil _ _)
          rw [List.cons_append] at hrest
          simp only [List.cons_append, Json.compactEntries, hrest, List.append_assoc]

def previewBytes (preview : List Char) : Nat :=
  if preview = [] then 0
  else (encodeUtf8 (',' :: (Json.quote "content_preview" ++
    ':' :: Json.quote (String.ofList preview)))).length

theorem previewBytes_mono {p q : List Char} (h : p <+: q) : previewBytes p ≤ previewBytes q := by
  obtain ⟨rest, rfl⟩ := h
  unfold previewBytes
  split
  · exact Nat.zero_le _
  · rename_i hne
    rw [if_neg (by simp [hne])]
    simp only [Json.quote, String.toList_ofList, List.flatMap_append, encodeUtf8_append,
      length_encodeUtf8_cons, List.length_append]
    omega

section Lines

variable {serde : SerdeJson} (env : Envelope) (f : SendInitiated)

theorem recordEntries_withPreview (preview : List Char) (shaCap : Nat) :
    recordEntries env (.sendInitiated (withPreview f (some (String.ofList preview)))) shaCap =
      recordEntries env (.sendInitiated (withPreview f none)) shaCap ++
        if preview = [] then [] else [("content_preview", .str (String.ofList preview))] := by
  have hentries : optStr "content_preview" (some (String.ofList preview)) =
      if preview = [] then [] else [("content_preview", Json.str (String.ofList preview))] := by
    cases preview with
    | nil => rfl
    | cons c cs => simp [optStr, optField]
  have hnone : optStr "content_preview" none = [] := rfl
  simp only [recordEntries, Payload.entries, SendInitiated.entries, withPreview, hentries, hnone,
    List.append_nil, List.append_assoc, List.cons_append, Payload.eventName]
  rfl

theorem recordBytes_withPreview (h : PrintsCompact serde) (preview : List Char) (shaCap : Nat) :
    recordBytes serde env (.sendInitiated (withPreview f (some (String.ofList preview)))) shaCap =
      recordBytes serde env (.sendInitiated (withPreview f none)) shaCap + previewBytes preview := by
  have hne : recordEntries env (.sendInitiated (withPreview f none)) shaCap ≠ [] := by
    simp [recordEntries, Envelope.entries]
  simp only [recordBytes, buildRecordLine, h _, recordEntries_withPreview, previewBytes]
  split
  · rw [List.append_nil, Nat.add_zero]
  · simp only [Json.compact, compactEntries_concat hne, encodeUtf8_append, length_encodeUtf8_cons,
      List.length_append]
    omega

theorem truncatePreviewBytes_zero (cs : List Char) : truncatePreviewBytes cs 0 = [] := by
  cases cs with
  | nil => rfl
  | cons c cs =>
      have hpos := c.utf8Size_pos
      rw [truncatePreviewBytes, if_neg (by omega)]

/-- With this preview, the line is under the bound when no hash is dropped. -/
def FitsWhole (serde : SerdeJson) (env : Envelope) (f : SendInitiated) (preview : List Char) : Prop :=
  recordBytes serde env (.sendInitiated (withPreview f (some (String.ofList preview)))) chunkShaCap <
    maxRecordBytes

variable {env f}

theorem FitsWhole.of_prefix (h : PrintsCompact serde) {p q : List Char} (hq : q <+: p)
    (hfits : FitsWhole serde env f p) : FitsWhole serde env f q := by
  have hmono := previewBytes_mono hq
  rw [FitsWhole, recordBytes_withPreview env f h] at hfits ⊢
  omega

theorem recordEntries_previewOfCap (preview : String) (cap shaCap : Nat) :
    recordEntries env (.sendInitiated (withPreview f (previewOfCap preview cap))) shaCap =
      recordEntries env (.sendInitiated (withPreview f
        (some (String.ofList (truncatePreviewBytes preview.toList cap))))) shaCap := by
  rw [previewOfCap]
  split
  · rename_i hcap
    rw [hcap, truncatePreviewBytes_zero, recordEntries_withPreview, if_pos rfl, List.append_nil]
  · rfl

theorem previewFits_iff (preview : String) (cap : Nat) :
    previewFits serde env f preview cap = true ↔
      FitsWhole serde env f (truncatePreviewBytes preview.toList cap) := by
  rw [previewFits, decide_eq_true_iff, FitsWhole, recordBytes, recordBytes, buildRecordLine,
    buildRecordLine, recordEntries_previewOfCap]

/-- What is left of a preview: the longest part from the front that fits with all hashes. -/
structure Chosen (serde : SerdeJson) (env : Envelope) (f : SendInitiated) (original preview : List Char) :
    Prop where
  isPrefix : preview <+: original
  fits : preview ≠ [] → FitsWhole serde env f preview
  longest : ∀ q, q <+: original → FitsWhole serde env f q → q <+: preview

theorem chosen_of_search (h : PrintsCompact serde) {preview : String}
    (hno : previewFits serde env f preview preview.utf8ByteSize = false) :
    Chosen serde env f preview.toList (truncatePreviewBytes preview.toList
      (searchPreview (previewFits serde env f preview) preview.utf8ByteSize 0
        preview.utf8ByteSize)) := by
  rcases Nat.eq_zero_or_pos preview.utf8ByteSize with hzero | hpos
  · have hnil : preview.toList = [] := by
      apply encodeUtf8_injective
      rw [encodeUtf8_nil, ← List.length_eq_zero_iff, ← utf8ByteSize_eq, hzero]
    rw [hnil]
    exact ⟨List.prefix_refl _, fun hne => absurd rfl hne, fun q hq _ => hq⟩
  obtain ⟨hfound, hnext⟩ :=
    @searchPreview_spec _ preview.utf8ByteSize 0 preview.utf8ByteSize hpos (by omega) hno
  generalize searchPreview (previewFits serde env f preview) preview.utf8ByteSize 0
    preview.utf8ByteSize = lo at hfound hnext ⊢
  refine ⟨truncatePreviewBytes_begins _ _, ?_, ?_⟩
  · intro hne
    rcases hfound with hzero | hfits
    · rw [hzero, truncatePreviewBytes_zero] at hne
      exact absurd rfl hne
    · exact (previewFits_iff preview lo).mp hfits
  · rintro q ⟨rest, hq⟩ hfits
    have hcut := truncatePreviewBytes_length q rest
    rw [hq] at hcut
    rcases Nat.lt_or_ge lo (encodeUtf8 q).length with hlt | hle
    · -- one byte more would already have been too much
      have hshort : FitsWhole serde env f (truncatePreviewBytes preview.toList (lo + 1)) :=
        hfits.of_prefix h (hcut ▸ truncatePreviewBytes_mono preview.toList hlt)
      rw [(previewFits_iff preview (lo + 1)).mpr hshort] at hnext
      cases hnext
    · exact hcut ▸ truncatePreviewBytes_mono preview.toList hle

theorem fitPreview_spec (h : PrintsCompact serde) (env : Envelope) (f : SendInitiated) :
    ∃ preview, Chosen serde env f (f.contentPreview.getD "").toList preview ∧
      ∀ shaCap, recordEntries env (fitPreview serde env (.sendInitiated f)) shaCap =
        recordEntries env (.sendInitiated (withPreview f (some (String.ofList preview)))) shaCap := by
  cases hpreview : f.contentPreview with
  | none =>
      refine ⟨[], ⟨List.prefix_refl _, fun hne => absurd rfl hne, fun q hq _ => hq⟩, fun shaCap => ?_⟩
      have hsame : f = withPreview f none := by rw [withPreview, ← hpreview]
      rw [recordEntries_withPreview, if_pos rfl, List.append_nil, ← hsame, fitPreview, hpreview]
  | some preview =>
      rw [Option.getD_some]
      have hwhole : truncatePreviewBytes preview.toList preview.utf8ByteSize = preview.toList := by
        have hcut := truncatePreviewBytes_length preview.toList []
        rwa [List.append_nil, ← utf8ByteSize_eq] at hcut
      cases hfits : previewFits serde env f preview preview.utf8ByteSize with
      | true =>
          have hline := (previewFits_iff preview _).mp hfits
          rw [hwhole] at hline
          refine ⟨preview.toList, ⟨List.prefix_refl _, fun _ => hline, fun q hq _ => hq⟩,
            fun shaCap => ?_⟩
          have hsame : f = withPreview f (some preview) := by rw [withPreview, ← hpreview]
          rw [String.ofList_toList, ← hsame, fitPreview, hpreview]
          simp only [hfits, if_true]
      | false =>
          refine ⟨_, chosen_of_search h hfits, fun shaCap => ?_⟩
          rw [← recordEntries_previewOfCap, fitPreview, hpreview]
          simp only [hfits, Bool.false_eq_true, if_false]

theorem fitShaCap_spec (serde : SerdeJson) (env : Envelope) (payload : Payload) (cap : Nat) :
    (fitShaCap serde env payload cap = 0 ∨
        recordBytes serde env payload (fitShaCap serde env payload cap) < maxRecordBytes) ∧
      fitShaCap serde env payload cap ≤ cap ∧
      (recordBytes serde env payload cap < maxRecordBytes →
        fitShaCap serde env payload cap = cap) := by
  induction cap with
  | zero => exact ⟨.inl rfl, le_refl _, fun _ => rfl⟩
  | succ cap ih =>
      obtain ⟨hfits, hle, -⟩ := ih
      rw [fitShaCap]
      split
      · rename_i hlong
        exact ⟨hfits, by omega, fun hshort => absurd hshort (not_lt.mpr hlong)⟩
      · rename_i hshort
        exact ⟨.inr (not_le.mp hshort), le_refl _, fun _ => rfl⟩

end Lines

/-! ### The fitted line -/

/-- The record that is written, and `fit_line`, which prints it. -/
def fittedEntries (serde : SerdeJson) (env : Envelope) (payload : Payload) : List (String × Json) :=
  let payload := fitPreview serde env payload
  recordEntries env payload (fitShaCap serde env payload chunkShaCap)

def fitLine (serde : SerdeJson) (env : Envelope) (payload : Payload) : List Char :=
  let payload := fitPreview serde env payload
  buildRecordLine serde env payload (fitShaCap serde env payload chunkShaCap)

def Payload.bare : Payload → Payload
  | .sendInitiated f => .sendInitiated (withPreview f none)
  | payload => payload

/-- What a line of a send is read back as: the keys of its recovery, the hashes up to some number,
and what is left of the preview. -/
structure SendRecord (f : SendInitiated) (v : Json) (kept : Nat) (preview : List Char) : Prop where
  event : v.strField "event" = some "send-initiated"
  sendId : v.strField "send_id" = some f.sendId
  contentSha256 : v.strField "content_sha256" = some f.contentSha256
  contentLen : v.u64Field "content_len" = some f.contentLen.toNat
  transcript : v.strField "transcript" = f.transcript.filter (!·.isEmpty)
  transcriptOffset : v.u64Field "transcript_offset" = f.transcriptOffset.map (·.toNat)
  chunkSha256s : v.get "chunk_sha256s" = some (.arr ((f.chunkSha256s.take kept).map Json.str))
  capped : v.get "chunk_sha256s_capped" =
    if f.chunkSha256sCapped = true ∨ kept < f.chunkSha256s.length then some (.bool true) else none
  contentPreview : v.strField "content_preview" =
    if preview = [] then none else some (String.ofList preview)

@[simp] theorem bind_asStr_optStr (v : Option String) :
    ((v.filter (!·.isEmpty)).map Json.str).bind Json.asStr = v.filter (!·.isEmpty) := by
  cases v.filter (!·.isEmpty) <;> rfl

theorem sendRecord_recordEntries (env : Envelope) (f : SendInitiated) (preview : List Char)
    (shaCap : Nat) :
    SendRecord f (.obj (recordEntries env
      (.sendInitiated (withPreview f (some (String.ofList preview)))) shaCap))
      (min f.chunkSha256s.length shaCap) preview := by
  have hget := @get_recordEntries_payload env
    (.sendInitiated (withPreview f (some (String.ofList preview)))) shaCap
  constructor
  case event => exact strField_event env _ shaCap
  case sendId => exact strField_sendId env _ shaCap
  case contentSha256 =>
    rw [Json.strField, hget (by simp [envelopeKeys])]
    simp [Payload.entries, SendInitiated.entries, withPreview, optStr, optTrue, optNum,
      Json.get_obj_append, Json.get_obj_cons, Json.asStr]
  case contentLen =>
    have hlen : (Json.obj ((Payload.sendInitiated
        (withPreview f (some (String.ofList preview)))).entries shaCap)).get "content_len" =
        some (u64 f.contentLen) := by
      simp [Payload.entries, SendInitiated.entries, withPreview, optStr, optTrue, optNum,
        Json.get_obj_append, Json.get_obj_cons]
    rw [Json.u64Field, hget (by simp [envelopeKeys]), hlen, Option.bind_some, asU64_u64]
  case transcript =>
    rw [Json.strField, hget (by simp [envelopeKeys])]
    simp [Payload.entries, SendInitiated.entries, withPreview, optStr, optTrue, optNum,
      Json.get_obj_append, Json.get_obj_cons]
  case transcriptOffset =>
    have hoffset : (Json.obj ((Payload.sendInitiated
        (withPreview f (some (String.ofList preview)))).entries shaCap)).get "transcript_offset" =
        f.transcriptOffset.map u64 := by
      simp [Payload.entries, SendInitiated.entries, withPreview, optStr, optTrue, optNum,
        Json.get_obj_append, Json.get_obj_cons, Function.comp_def]
      rfl
    rw [Json.u64Field, hget (by simp [envelopeKeys]), hoffset]
    cases f.transcriptOffset with
    | none => rfl
    | some o => rw [Option.map_some, Option.bind_some, asU64_u64, Option.map_some]
  case chunkSha256s =>
    rw [hget (by simp [envelopeKeys])]
    simp [Payload.entries, SendInitiated.entries, withPreview, optStr, optTrue, optNum,
      Json.get_obj_append, Json.get_obj_cons]
  case capped =>
    rw [hget (by simp [envelopeKeys])]
    have hmin : min f.chunkSha256s.length shaCap < f.chunkSha256s.length ↔
        shaCap < f.chunkSha256s.length := by omega
    by_cases hlt : shaCap < f.chunkSha256s.length
    · simp [Payload.entries, SendInitiated.entries, withPreview, optStr, optTrue, optNum,
        Json.get_obj_append, Json.get_obj_cons, hmin, hlt]
    · simp [Payload.entries, SendInitiated.entries, withPreview, optStr, optTrue, optNum,
        Json.get_obj_append, Json.get_obj_cons, hmin, hlt]
  case contentPreview =>
    rw [Json.strField, hget (by simp [envelopeKeys])]
    cases preview with
    | nil =>
        simp [Payload.entries, SendInitiated.entries, withPreview, optStr, optTrue, optNum,
          Json.get_obj_append, Json.get_obj_cons]
    | cons c cs =>
        simp [Payload.entries, SendInitiated.entries, withPreview, optStr, optTrue, optNum,
          Json.get_obj_append, Json.get_obj_cons]

structure FittedSend (serde : SerdeJson) (env : Envelope) (f : SendInitiated) (line : List Char)
    (cap : Nat) (preview : List Char) : Prop where
  readBack : ∃ v, serde.fromStr line = some v ∧
    SendRecord f v (min f.chunkSha256s.length cap) preview
  chosen : Chosen serde env f (f.contentPreview.getD "").toList preview
  dropped : cap < chunkShaCap → preview = []

theorem bytes_fitLine (serde : SerdeJson) (env : Envelope) (payload : Payload) :
    (encodeUtf8 (fitLine serde env payload)).length = recordBytes serde env
      (fitPreview serde env payload)
      (fitShaCap serde env (fitPreview serde env payload) chunkShaCap) := rfl

theorem recordBytes_of_bare {serde : SerdeJson} {env : Envelope} {payload : Payload}
    (h : ∀ f, payload ≠ .sendInitiated f) (shaCap : Nat) :
    fitPreview serde env payload = payload ∧
      recordBytes serde env payload shaCap = recordBytes serde env payload.bare 0 := by
  cases payload with
  | sendInitiated f => exact absurd rfl (h f)
  | _ => exact ⟨rfl, rfl⟩

theorem fitted_send {serde : SerdeJson} {env : Envelope} {f : SendInitiated}
    (hprints : PrintsCompact serde)
    (hreads : serde.LawfulAt (.obj (fittedEntries serde env (.sendInitiated f))))
    (hbare : recordBytes serde env (Payload.bare (.sendInitiated f)) 0 < maxRecordBytes) :
    (encodeUtf8 (fitLine serde env (.sendInitiated f))).length < maxRecordBytes ∧
      ∃ cap ≤ chunkShaCap, ∃ preview,
        FittedSend serde env f (fitLine serde env (.sendInitiated f)) cap preview := by
  obtain ⟨preview, hchosen, hentries⟩ := fitPreview_spec hprints env f
  obtain ⟨hfits, hle, hwhole⟩ :=
    fitShaCap_spec serde env (fitPreview serde env (.sendInitiated f)) chunkShaCap
  have hbytes : ∀ cap, recordBytes serde env (fitPreview serde env (.sendInitiated f)) cap =
      recordBytes serde env (.sendInitiated (withPreview f (some (String.ofList preview)))) cap := by
    intro cap
    rw [recordBytes, recordBytes, buildRecordLine, buildRecordLine, hentries]
  have hkeeps : preview ≠ [] →
      recordBytes serde env (fitPreview serde env (.sendInitiated f)) chunkShaCap <
        maxRecordBytes := by
    intro hne
    rw [hbytes]
    exact hchosen.fits hne
  refine ⟨?_, _, hle, preview, ⟨⟨_, hreads.fromStr_toString, ?_⟩, hchosen, ?_⟩⟩
  · rw [bytes_fitLine]
    rcases hfits with hzero | hfits
    · by_cases hnil : preview = []
      · -- nothing is left that could yield
        rw [hzero, hbytes, recordBytes_withPreview env f hprints, hnil, previewBytes, if_pos rfl]
        exact hbare
      · rw [hwhole (hkeeps hnil)]
        exact hkeeps hnil
    · exact hfits
  · have hrecord := sendRecord_recordEntries env f preview
      (fitShaCap serde env (fitPreview serde env (.sendInitiated f)) chunkShaCap)
    rwa [← hentries] at hrecord
  · intro hlt
    by_contra hne
    rw [hwhole (hkeeps hne)] at hlt
    exact lt_irrefl _ hlt

/-- A line under the bound, which keeps what a recovery needs: first the preview yields, and only
then do hashes. -/
theorem fitLine_fits (serde : SerdeJson) (env : Envelope) (payload : Payload)
    (hprints : PrintsCompact serde) (hreads : serde.LawfulAt (.obj (fittedEntries serde env payload)))
    (hbare : recordBytes serde env payload.bare 0 < maxRecordBytes) :
    (encodeUtf8 (fitLine serde env payload)).length < maxRecordBytes ∧
      ∀ f, payload = .sendInitiated f →
        ∃ cap ≤ chunkShaCap, ∃ preview,
          FittedSend serde env f (fitLine serde env payload) cap preview := by
  by_cases hsend : ∃ f, payload = .sendInitiated f
  · obtain ⟨f, rfl⟩ := hsend
    obtain ⟨hline, hfitted⟩ := fitted_send hprints hreads hbare
    refine ⟨hline, fun f' heq => ?_⟩
    obtain rfl := Payload.sendInitiated.inj heq
    exact hfitted
  · have hother : ∀ f, payload ≠ .sendInitiated f := fun f heq => hsend ⟨f, heq⟩
    refine ⟨?_, fun f heq => absurd heq (hother f)⟩
    rw [bytes_fitLine, (recordBytes_of_bare hother 0).1, (recordBytes_of_bare hother _).2]
    exact hbare

/-! ### Some sends -/

def senderEnv : Envelope := { ts := "2026-01-01T00:00:00.000Z", pid := 7, seq := 1 }

def shortSend : SendInitiated where
  sendId := "s1"
  verb := "send"
  sendPath := "pty"
  contentSha256 := "c0"
  contentLen := 2
  chunks := 1
  chunkSha256s := ["c0"]
  chunkSha256sCapped := false
  transcript := some "t.jsonl"
  transcriptOffset := some 3
  contentPreview := some "hi"

def sendLib (f : SendInitiated) : SerdeJson :=
  .knowing [.obj (fittedEntries (.knowing []) senderEnv (.sendInitiated f))]

theorem fittedEntries_sendLib (f g : SendInitiated) :
    fittedEntries (sendLib f) senderEnv (.sendInitiated g) =
      fittedEntries (.knowing []) senderEnv (.sendInitiated g) := rfl

theorem sendLib_lawful (f : SendInitiated) :
    (sendLib f).LawfulAt (.obj (fittedEntries (sendLib f) senderEnv (.sendInitiated f))) := by
  rw [fittedEntries_sendLib]
  exact SerdeJson.lawfulAt_knowing_singleton (floatless_recordEntries _ _ _)

/-- A short send loses nothing. -/
theorem fitLine_short :
    (encodeUtf8 (fitLine (sendLib shortSend) senderEnv (.sendInitiated shortSend))).length <
        maxRecordBytes ∧
      ∃ cap ≤ chunkShaCap, ∃ preview, FittedSend (sendLib shortSend) senderEnv shortSend
        (fitLine (sendLib shortSend) senderEnv (.sendInitiated shortSend)) cap preview := by
  have hlawful : (sendLib shortSend).LawfulAt
      (.obj (fittedEntries (sendLib shortSend) senderEnv (.sendInitiated shortSend))) :=
    sendLib_lawful _
  obtain ⟨hline, hsend⟩ := fitLine_fits (sendLib shortSend) senderEnv (.sendInitiated shortSend)
    (fun _ => rfl) hlawful (by decide +kernel)
  exact ⟨hline, hsend shortSend rfl⟩

/-- A send whose list of hashes was cut before, and whose transcript has no name. -/
def cutSend : SendInitiated :=
  { shortSend with chunkSha256s := [], chunkSha256sCapped := true, transcript := some "" }

def longSend : SendInitiated := { shortSend with chunkSha256s := List.replicate 49 "c0" }

/-- The flag stands also where the list came in cut, a record holds no more than so many hashes
whatever its preview, and an empty transcript is omitted. -/
theorem fitLine_capped :
    (¬ ∀ (serde : SerdeJson) (env : Envelope) (f : SendInitiated) (v : Json), PrintsCompact serde →
      serde.LawfulAt (.obj (fittedEntries serde env (.sendInitiated f))) →
        recordBytes serde env (Payload.bare (.sendInitiated f)) 0 < maxRecordBytes →
          serde.fromStr (fitLine serde env (.sendInitiated f)) = some v →
            (v.get "chunk_sha256s_capped" = some (.bool true) ↔
              v.get "chunk_sha256s" ≠ some (.arr (f.chunkSha256s.map Json.str)))) ∧
    (¬ ∀ (serde : SerdeJson) (env : Envelope) (f : SendInitiated) (v : Json), PrintsCompact serde →
      serde.LawfulAt (.obj (fittedEntries serde env (.sendInitiated f))) →
        recordBytes serde env (Payload.bare (.sendInitiated f)) 0 < maxRecordBytes →
          serde.fromStr (fitLine serde env (.sendInitiated f)) = some v →
            v.get "chunk_sha256s" ≠ some (.arr (f.chunkSha256s.map Json.str)) →
              v.strField "content_preview" = none) ∧
    ¬ ∀ (serde : SerdeJson) (env : Envelope) (f : SendInitiated) (v : Json), PrintsCompact serde →
      serde.LawfulAt (.obj (fittedEntries serde env (.sendInitiated f))) →
        recordBytes serde env (Payload.bare (.sendInitiated f)) 0 < maxRecordBytes →
          serde.fromStr (fitLine serde env (.sendInitiated f)) = some v →
            v.strField "transcript" = f.transcript := by
  have hcut : (sendLib cutSend).LawfulAt
      (.obj (fittedEntries (sendLib cutSend) senderEnv (.sendInitiated cutSend))) :=
    sendLib_lawful _
  have hbare : recordBytes (sendLib cutSend) senderEnv (Payload.bare (.sendInitiated cutSend)) 0 <
      maxRecordBytes := by decide +kernel
  obtain ⟨-, cap, -, preview, ⟨v, hv, hrecord⟩, -, -⟩ := fitted_send (fun _ => rfl) hcut hbare
  refine ⟨?_, ?_, ?_⟩
  · intro h
    have hflag := (h _ senderEnv cutSend v (fun _ => rfl) hcut hbare hv).mp
      (by rw [hrecord.capped]; rfl)
    exact hflag hrecord.chunkSha256s
  · intro h
    have hlong : (sendLib longSend).LawfulAt
        (.obj (fittedEntries (sendLib longSend) senderEnv (.sendInitiated longSend))) :=
      sendLib_lawful _
    have hbare' : recordBytes (sendLib longSend) senderEnv
        (Payload.bare (.sendInitiated longSend)) 0 < maxRecordBytes := by decide +kernel
    obtain ⟨-, cap', hcap, preview', ⟨v', hv', hrecord'⟩, hchosen, -⟩ :=
      fitted_send (fun _ => rfl) hlong hbare'
    have hfits : FitsWhole (sendLib longSend) senderEnv longSend ['h', 'i'] :=
      show recordBytes _ _ _ _ < maxRecordBytes by decide +kernel
    have hpreview := hchosen.longest ['h', 'i'] (List.prefix_refl _) hfits
    have hnone := h _ senderEnv longSend v' (fun _ => rfl) hlong hbare' hv' (by
      rw [hrecord'.chunkSha256s]
      intro heq
      have hlen := congrArg List.length (Json.arr.inj (Option.some.inj heq))
      rw [List.length_map, List.length_map, List.length_take] at hlen
      have hall : longSend.chunkSha256s.length = 49 := rfl
      simp only [chunkShaCap] at hcap
      omega)
    rw [hrecord'.contentPreview, if_neg] at hnone
    · cases hnone
    · rintro rfl
      cases List.prefix_nil.mp hpreview
  · intro h
    have hsame := h _ senderEnv cutSend v (fun _ => rfl) hcut hbare hv
    rw [hrecord.transcript] at hsame
    cases hsame

end QuorumDispatch.DeliveryEvents
