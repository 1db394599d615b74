import QuorumDispatch.Timefmt.Lenient

/-!
The copies agree: on the texts of the formatter the two lenient parsers return what the strict
one does, the other formatters write the same bytes, and the bytes are in the order of the
instants. What is left is the overflow of the events' parser on texts that no formatter
writes.
-/

namespace QuorumDispatch.Timefmt

open Lib
open Lib.Calendar (Date)
open Provider (splitOnce splitOnce_append)

/-! ### Order -/

theorem cons_lt_cons_self_iff {c : UInt8} {us vs : Bytes} : c :: us < c :: vs ↔ us < vs := by
  rw [List.cons_lt_cons_iff]
  simp

theorem isoBytes_lt_iff {y mo d h mi s milli y' mo' d' h' mi' s' milli' : Nat}
    (hy : y < 10 ^ 4 ∧ y' < 10 ^ 4) (hmo : mo < 10 ^ 2 ∧ mo' < 10 ^ 2)
    (hd : d < 10 ^ 2 ∧ d' < 10 ^ 2) (hh : h < 10 ^ 2 ∧ h' < 10 ^ 2)
    (hmi : mi < 10 ^ 2 ∧ mi' < 10 ^ 2) (hs : s < 10 ^ 2 ∧ s' < 10 ^ 2)
    (hmilli : milli < 10 ^ 3 ∧ milli' < 10 ^ 3) :
    isoBytes y mo d h mi s milli < isoBytes y' mo' d' h' mi' s' milli' ↔
      y < y' ∨ y = y' ∧ (mo < mo' ∨ mo = mo' ∧ (d < d' ∨ d = d' ∧ (h < h' ∨ h = h' ∧
        (mi < mi' ∨ mi = mi' ∧ (s < s' ∨ s = s' ∧ milli < milli'))))) := by
  have hfield : ∀ {w a b : Nat} {us vs : Bytes}, a < 10 ^ w ∧ b < 10 ^ w →
      (encodeUtf8 (digits w a) ++ us < encodeUtf8 (digits w b) ++ vs ↔
        a < b ∨ a = b ∧ us < vs) := by
    intro w a b us vs hab
    rw [append_lt_append_iff (by simp), encodeUtf8_digits_lt_iff hab.1 hab.2,
      encodeUtf8_digits_inj hab.1 hab.2]
  have hend : ¬ ([90] : Bytes) < [90] := by simp
  simp only [isoBytes, hfield hy, hfield hmo, hfield hd, hfield hh, hfield hmi, hfield hs,
    hfield hmilli, cons_lt_cons_self_iff, hend, and_false, or_false]

structure InFields (y mo d h mi s milli : Nat) : Prop where
  month : 1 ≤ mo ∧ mo ≤ 12
  day : 1 ≤ d ∧ d ≤ 31
  hour : h ≤ 23
  min : mi ≤ 59
  sec : s ≤ 59
  milli : milli ≤ 999

theorem Civil.Spells.inFields {y mo d h mi s milli : Nat} {ms : Int}
    (hc : Civil.Spells ⟨⟨y, mo, d⟩, h, mi, s, milli⟩ ms) : InFields y mo d h mi s milli := by
  have hmonth := hc.date.month
  have hday := hc.date.day
  have hlen := Calendar.monthLength_le y mo
  have hhour := hc.hour
  have hmin := hc.min
  have hsec := hc.sec
  have hmilli := hc.milli
  dsimp only at hmonth hday hhour hmin hsec hmilli
  exact ⟨by omega, by omega, by omega, by omega, by omega, by omega⟩

/-- Instants are compared by their days, and then by the fields of the day. -/
theorem instant_lt_iff {n n' : Int} {h mi s milli h' mi' s' milli' : Nat}
    (hmi : mi ≤ 59 ∧ mi' ≤ 59) (hs : s ≤ 59 ∧ s' ≤ 59) (hh : h ≤ 23 ∧ h' ≤ 23)
    (hmilli : milli ≤ 999 ∧ milli' ≤ 999) :
    (n * 86400 + h * 3600 + mi * 60 + s) * 1000 + milli <
        (n' * 86400 + h' * 3600 + mi' * 60 + s') * 1000 + milli' ↔
      n < n' ∨ n = n' ∧ (h < h' ∨ h = h' ∧ (mi < mi' ∨ mi = mi' ∧
        (s < s' ∨ s = s' ∧ milli < milli'))) := by
  omega

/-- On four-digit years the order of the texts is that of the instants. -/
theorem epochMsToIso_lt_iff {a b : Int} (ha : InYears a) (hb : InYears b) :
    encodeUtf8 (epochMsToIso a) < encodeUtf8 (epochMsToIso b) ↔ a < b := by
  obtain ⟨y, mo, d, h, mi, s, milli, hy, hc⟩ := ha.fields
  obtain ⟨y', mo', d', h', mi', s', milli', hy', hc'⟩ := hb.fields
  obtain ⟨hmonth, hday, hhour, hmin, hsec, hmilli⟩ := hc.inFields
  obtain ⟨hmonth', hday', hhour', hmin', hsec', hmilli'⟩ := hc'.inFields
  have hbefore := Calendar.daysFromCivil_lt_iff hc.date hc'.date
  have hsame : Calendar.daysFromCivil ⟨y, mo, d⟩ = Calendar.daysFromCivil ⟨y', mo', d'⟩ ↔
      y = y' ∧ mo = mo' ∧ d = d' := by
    constructor
    · intro heq
      have hdate := Calendar.daysFromCivil_injective hc.date hc'.date heq
      simpa using hdate
    · rintro ⟨rfl, rfl, rfl⟩
      rfl
  rw [epochMsToIso_eq hy hc, epochMsToIso_eq hy' hc', encodeUtf8_isoText, encodeUtf8_isoText,
    isoBytes_lt_iff ⟨by omega, by omega⟩ ⟨by omega, by omega⟩ ⟨by omega, by omega⟩
      ⟨by omega, by omega⟩ ⟨by omega, by omega⟩ ⟨by omega, by omega⟩ ⟨by omega, by omega⟩,
    hc.instant, hc'.instant, instant_lt_iff ⟨hmin, hmin'⟩ ⟨hsec, hsec'⟩ ⟨hhour, hhour'⟩
      ⟨hmilli, hmilli'⟩]
  dsimp only
  rw [hbefore, hsame]
  simp only [Date.Before, Nat.cast_lt, Nat.cast_inj, and_or_left, or_assoc, and_assoc]

/-! ### Reading the fields again -/

theorem pieces_of_notMem {sep : Char} {p : List Char} (h : sep ∉ p) : pieces sep p = [p] := by
  rw [pieces, Lines.of, Lines.extend_of_notMem h]
  rfl

theorem pieces_append {sep : Char} {p : List Char} (h : sep ∉ p) (rest : List Char) :
    pieces sep (p ++ sep :: rest) = p :: pieces sep rest := by
  have hfront : Lines.of sep (p ++ [sep]) = ⟨[p] ++ ([] : List (List Char)), []⟩ := by
    rw [Lines.of_append, Lines.of, Lines.extend_of_notMem h, Lines.extend_sep]
    rfl
  have hsplit : p ++ sep :: rest = (p ++ [sep]) ++ rest := by simp
  rw [pieces, hsplit, Lines.of_append, hfront,
    Lines.extend_of_terminated [p] (⟨[], []⟩ : Lines Char) rest]
  rfl

section Image

variable {y mo d h mi s milli : Nat}

theorem trim_isoText : trim (isoText y mo d h mi s milli) = isoText y mo d h mi s milli := by
  apply trim_eq_self
  · intro c hc
    rw [isoText, List.head?_append_of_ne_nil _ (digits_ne_nil (by decide) y)] at hc
    have hdigit := isDigit_of_mem_digits (List.mem_of_head? hc)
    simp only [Char.isDigit, Bool.and_eq_true, decide_eq_true_eq] at hdigit
    have hlow : '0'.toNat ≤ c.toNat := hdigit.1
    have hhigh : c.toNat ≤ '9'.toNat := hdigit.2
    have h0 : '0'.toNat = 48 := by decide
    have h9 : '9'.toNat = 57 := by decide
    rw [h0] at hlow
    rw [h9] at hhigh
    simp only [isWhitespace]
    generalize c.toNat = n at *
    interval_cases n <;> decide
  · intro c hc
    have hlast : (isoText y mo d h mi s milli).getLast? = some 'Z' := by
      simp [isoText, List.getLast?_append, List.getLast?_cons]
    rw [hlast] at hc
    cases hc
    decide

theorem dateParts_isoText (hy : y < 10 ^ 4) (hmo : mo < 10 ^ 2) (hd : d < 10 ^ 2) :
    dateParts (isoText y mo d h mi s milli) =
      some ((y : Int), (mo : Int), (d : Int), digits 2 h ++ ':' :: (digits 2 mi ++ ':' :: (digits 2 s ++ '.' ::
        (digits 3 milli ++ ['Z'])))) := by
  have hdash : ∀ w n, '-' ∉ digits w n := notMem_digits (by decide)
  have hT : ∀ w n, 'T' ∉ digits w n := notMem_digits (by decide)
  have hdate : 'T' ∉ digits 4 y ++ '-' :: (digits 2 mo ++ '-' :: digits 2 d) := by
    simp [hT]
  have hsplit : isoText y mo d h mi s milli =
      (digits 4 y ++ '-' :: (digits 2 mo ++ '-' :: digits 2 d)) ++ ['T'] ++
        (digits 2 h ++ ':' :: (digits 2 mi ++ ':' :: (digits 2 s ++ '.' ::
          (digits 3 milli ++ ['Z'])))) := by
    simp [isoText]
  rw [dateParts, hsplit, splitOnce_append [] hdate]
  simp only [Option.bind_eq_bind, Option.bind_some]
  rw [pieces_append (hdash 4 y), pieces_append (hdash 2 mo), pieces_of_notMem (hdash 2 d)]
  simp [parseI64_digits (by decide : 0 < 4) (by decide) hy,
    parseI64_digits (by decide : 0 < 2) (by decide) hmo,
    parseI64_digits (by decide : 0 < 2) (by decide) hd]

theorem timeAndMillis_isoText (hmilli : milli < 10 ^ 3) :
    timeAndMillis (digits 2 h ++ ':' :: (digits 2 mi ++ ':' :: (digits 2 s ++ '.' ::
      (digits 3 milli ++ ['Z'])))) =
      some (digits 2 h ++ ':' :: (digits 2 mi ++ ':' :: digits 2 s), (milli : Int)) := by
  have hdot : '.' ∉ digits 2 h ++ ':' :: (digits 2 mi ++ ':' :: digits 2 s) := by
    have hdot : ∀ w n, '.' ∉ digits w n := notMem_digits (by decide)
    simp [hdot]
  have hzone : (digits 2 h ++ ':' :: (digits 2 mi ++ ':' :: (digits 2 s ++ '.' ::
      (digits 3 milli ++ ['Z'])))).rdropWhile (· == 'Z') =
      (digits 2 h ++ ':' :: (digits 2 mi ++ ':' :: digits 2 s)) ++ ['.'] ++ digits 3 milli := by
    have hlast : (Nat.digitChar (milli % 10) == 'Z') = false := by
      have : milli % 10 < 10 := Nat.mod_lt _ (by decide)
      generalize milli % 10 = k at this
      interval_cases k <;> decide
    have hsplit : digits 2 h ++ ':' :: (digits 2 mi ++ ':' :: (digits 2 s ++ '.' ::
        (digits 3 milli ++ ['Z']))) =
        ((digits 2 h ++ ':' :: (digits 2 mi ++ ':' :: digits 2 s)) ++ ['.'] ++
          digits 2 (milli / 10)) ++ [Nat.digitChar (milli % 10)] ++ ['Z'] := by
      simp [digits]
    rw [hsplit, List.rdropWhile_concat_pos _ _ _ (by decide),
      List.rdropWhile_concat_neg _ _ _ (by simp [hlast])]
    simp [digits]
  have htake : (digits 3 milli).take 3 = digits 3 milli :=
    List.take_of_length_le (by simp)
  have hrange : InI64 (milli : Int) := ⟨by omega, by omega⟩
  simp only [timeAndMillis]
  rw [hzone, splitOnce_append [] hdot]
  simp [htake, parseI64_digits (by decide : 0 < 3) (by decide) hmilli, i64_of_inI64 hrange]

theorem timeParts_digits (hh : h < 10 ^ 2) (hmi : mi < 10 ^ 2) (hs : s < 10 ^ 2) :
    timeParts (digits 2 h ++ ':' :: (digits 2 mi ++ ':' :: digits 2 s)) =
      some ((h : Int), (mi : Int), (s : Int)) := by
  have hcolon : ∀ w n, ':' ∉ digits w n := notMem_digits (by decide)
  rw [timeParts, pieces_append (hcolon 2 h), pieces_append (hcolon 2 mi),
    pieces_of_notMem (hcolon 2 s)]
  simp [parseI64_digits (by decide : 0 < 2) (by decide) hh,
    parseI64_digits (by decide : 0 < 2) (by decide) hmi,
    parseI64_digits (by decide : 0 < 2) (by decide) hs]

theorem parseIsoMs_isoText (hy : y < 10 ^ 4) (hmo : mo < 10 ^ 2) (hd : d < 10 ^ 2)
    (hh : h < 10 ^ 2) (hmi : mi < 10 ^ 2) (hs : s < 10 ^ 2) (hmilli : milli < 10 ^ 3) :
    Gc.parseIsoMs (isoText y mo d h mi s milli) =
      some ((daysFromCivil y mo d * 86400 + h * 3600 + mi * 60 + s) * 1000 + milli) := by
  have hreads := reads_isoBytes hy hmo hd hh hmi hs hmilli
  have hlen := hreads.length
  have hget : ∀ {lo hi n : Nat}, field (isoBytes y mo d h mi s milli) lo hi = some n → lo < hi →
      hi ≤ 24 → hi - lo ≤ 18 →
      (getRange (isoBytes y mo d h mi s milli) lo hi).bind parseI64 = some (n : Int) := by
    intro lo hi n hfield hpos hhi hwidth
    obtain ⟨hlt, hslice⟩ := field_eq_some hfield (by omega)
    rw [getRange, if_pos (by omega), hslice, decodeUtf8_encodeUtf8, Option.bind_some]
    exact parseI64_digits (by omega) hwidth hlt
  have hshort : ¬ (isoBytes y mo d h mi s milli).length < 19 := by omega
  have hfraction : 23 ≤ (isoBytes y mo d h mi s milli).length ∧
      (isoBytes y mo d h mi s milli)[19]? = some 46 := ⟨by omega, hreads.times.2.2.1⟩
  simp only [Gc.parseIsoMs, encodeUtf8_isoText]
  rw [if_neg hshort, if_pos hfraction, hget hreads.year (by decide) (by decide) (by decide),
    hget hreads.month (by decide) (by decide) (by decide),
    hget hreads.day (by decide) (by decide) (by decide),
    hget hreads.hour (by decide) (by decide) (by decide),
    hget hreads.min (by decide) (by decide) (by decide),
    hget hreads.sec (by decide) (by decide) (by decide),
    hget hreads.milli (by decide) (by decide) (by decide)]
  rfl

end Image

/-! ### Agreement -/

section Agreement

variable {ms : Int}

theorem daysFromCivil_bound {y mo d : Nat} (hy : y ≤ 9999) (h : (⟨y, mo, d⟩ : Date).Valid) :
    Calendar.daysFromCivil ⟨y, mo, d⟩ ≤ 4000000 ∧
      -1000000 ≤ Calendar.daysFromCivil ⟨y, mo, d⟩ := by
  have hyear := h.dayOfYear
  have hdays := Date.daysFromCivil_eq ⟨y, mo, d⟩
  have hmarch : (y : Int) - 1 ≤ Date.marchYear ⟨y, mo, d⟩ ∧ Date.marchYear ⟨y, mo, d⟩ ≤ y := by
    simp only [Date.marchYear]
    split <;> omega
  generalize Date.marchYear ⟨y, mo, d⟩ = march at *
  simp only [Calendar.yearStart] at hyear hdays
  omega

/-- The lenient parsers return the instants of the formatter's texts. -/
theorem lenient_epochMsToIso (h : InYears ms) :
    Lenient.isoToEpochMs (epochMsToIso ms) = some (some ms) ∧
      Gc.parseIsoMs (epochMsToIso ms) = some ms := by
  obtain ⟨y, mo, d, hh, mi, s, milli, hy, hc⟩ := h.fields
  obtain ⟨hmonth, hday, hhour, hmin, hsec, hmilli⟩ := hc.inFields
  have hinst := hc.instant
  dsimp only at hinst
  have hcount : daysFromCivil y mo d = Calendar.daysFromCivil ⟨y, mo, d⟩ :=
    daysFromCivil_eq (by omega)
  have hbound := daysFromCivil_bound hy hc.date
  rw [epochMsToIso_eq hy hc]
  constructor
  · have hwritten : written (isoText y mo d hh mi s milli) =
        some ⟨y, mo, d, hh, mi, s, milli⟩ := by
      rw [written, trim_isoText, dateParts_isoText (by omega) (by omega) (by omega)]
      simp only [Option.bind_eq_bind, Option.bind_some]
      rw [timeAndMillis_isoText (by omega)]
      simp only [Option.bind_some]
      rw [timeParts_digits (by omega) (by omega) (by omega)]
      rfl
    apply (Lenient.isoToEpochMs_eq hwritten).mpr
    have hw : Written.days ⟨y, mo, d, hh, mi, s, milli⟩ = Calendar.daysFromCivil ⟨y, mo, d⟩ := hcount
    rw [hw]
    refine ⟨⟨?_, ?_, ?_, ?_, ?_, ?_, ?_⟩, congrArg some hinst.symm⟩
    all_goals
      simp only [InI64, hw]
      generalize Calendar.daysFromCivil ⟨y, mo, d⟩ = n at hbound
      clear hinst hcount hwritten
      omega
  · rw [parseIsoMs_isoText (by omega) (by omega) (by omega) (by omega) (by omega) (by omega)
      (by omega), hcount, ← hinst]

theorem isoFromMs_eq (ms : Int) : Gc.isoFromMs ms = epochMsToIso ms := rfl

/-- The parser of the events overflows exactly on texts with numbers out of
reach. -/
theorem Lenient.isoToEpochMs_ne_none_iff {text : List Char} :
    Lenient.isoToEpochMs text ≠ none ↔ ∀ w, written text = some w → w.InReach := by
  cases hw : written text with
  | none => simp [Lenient.isoToEpochMs_of_none hw]
  | some w =>
      constructor
      · intro h w' hw'
        obtain ⟨r, hr⟩ := Option.ne_none_iff_exists'.mp h
        cases hw'
        exact ((Lenient.isoToEpochMs_eq hw).mp hr).1
      · intro h
        rw [(Lenient.isoToEpochMs_eq hw).mpr ⟨h w rfl, rfl⟩]
        exact Option.some_ne_none _

end Agreement

/-- The codec: the strict parser and the formatter are inverse to each other, the copies agree
with them on the formatter's texts, whose order is that of the instants, and the parser of the
events goes through exactly where the numbers of the text are in reach. -/
theorem timestampCodec (text : List Char) :
    (∀ ms, InYears ms → isoToEpochMs (epochMsToIso ms) = some ms) ∧
      (∀ ms, isoToEpochMs text = some ms → text = epochMsToIso ms) ∧
      (∀ ms, InYears ms →
        Lenient.isoToEpochMs (epochMsToIso ms) = some (some ms) ∧
          Emitter.epochMsToIso ms = epochMsToIso ms ∧ Gc.isoFromMs ms = epochMsToIso ms ∧
          Gc.parseIsoMs (epochMsToIso ms) = some ms) ∧
      (∀ a b, InYears a → InYears b →
        (encodeUtf8 (epochMsToIso a) < encodeUtf8 (epochMsToIso b) ↔ a < b)) ∧
      (Lenient.isoToEpochMs text ≠ none ↔ ∀ w, written text = some w → w.InReach) := by
  refine ⟨?_, ?_, ?_, ?_, ?_⟩
  · intro ms h
    exact isoToEpochMs_iff.mpr ⟨h, rfl⟩
  · intro ms h
    exact (isoToEpochMs_iff.mp h).2
  · intro ms h
    obtain ⟨hlenient, hgc⟩ := lenient_epochMsToIso h
    exact ⟨hlenient, rfl, isoFromMs_eq ms, hgc⟩
  · exact fun a b => epochMsToIso_lt_iff
  · exact Lenient.isoToEpochMs_ne_none_iff

/-- The start of 1970, a day of 1972 and a day before the epoch. -/
theorem timestampCodec_1972 :
    isoToEpochMs (epochMsToIso 68256000000) = some 68256000000 ∧
      Gc.parseIsoMs (epochMsToIso (-1)) = some (-1) ∧
      encodeUtf8 (epochMsToIso (-1)) < encodeUtf8 (epochMsToIso 0) :=
  ⟨(timestampCodec []).1 _ (by decide), ((timestampCodec []).2.2.1 _ (by decide)).2.2.2,
    ((timestampCodec []).2.2.2.1 _ _ (by decide) (by decide)).mpr (by decide)⟩

def farYear : List Char := "9223372036854775807-01-01T00:00:00Z".toList

/-- The parser of the events overflows on it. -/
theorem farYear_overflows : ¬ ∀ text, Lenient.isoToEpochMs text ≠ none := by
  intro h
  exact h farYear (by decide)

/-! ### The clock -/

/-- A millisecond later on a clock with a calendar. -/
def Civil.tick (c : Civil) : Civil :=
  if c.milli < 999 then { c with milli := c.milli + 1 }
  else if c.sec < 59 then { c with sec := c.sec + 1, milli := 0 }
  else if c.min < 59 then { c with min := c.min + 1, sec := 0, milli := 0 }
  else if c.hour < 23 then { c with hour := c.hour + 1, min := 0, sec := 0, milli := 0 }
  else ⟨c.date.next, 0, 0, 0, 0⟩

theorem Civil.Spells.tick {c : Civil} {ms : Int} (h : c.Spells ms) : c.tick.Spells (ms + 1) := by
  obtain ⟨hdate, hhour, hmin, hsec, hmilli, hinstant⟩ := h
  have hnext := Calendar.daysFromCivil_next hdate
  unfold Civil.tick
  split_ifs
  case neg => refine ⟨hdate.next, ?_, ?_, ?_, ?_, ?_⟩ <;> dsimp only <;> omega
  all_goals refine ⟨hdate, ?_, ?_, ?_, ?_, ?_⟩ <;> dsimp only <;> omega

/-- **The clock ticks.** It starts with 1970, and from one millisecond to the next it goes as clocks and
calendars go, before the epoch as behind it. -/
theorem civilFromEpochMs_succ (ms : Int) : civilFromEpochMs 0 = ⟨⟨1970, 1, 1⟩, 0, 0, 0, 0⟩ ∧
    civilFromEpochMs (ms + 1) = (civilFromEpochMs ms).tick :=
  ⟨by decide, (civilFromEpochMs_spells ms).tick.eq⟩

end QuorumDispatch.Timefmt
