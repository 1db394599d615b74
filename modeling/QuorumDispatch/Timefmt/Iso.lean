import QuorumDispatch.Lib.Calendar
import QuorumDispatch.Lib.Digits

/-!
Timestamps with milliseconds in UTC: the formatter, its copies in the multiplexer and in
the collector, and the strict parser, which is its inverse.
-/

namespace QuorumDispatch.Timefmt

open Lib
open Lib.Calendar (Date)

/-! ### Dates -/

/-- `civil_from_days`, with divisions that round towards zero. -/
def civilFromDays (z : Int) : Date :=
  let z := z + 719468
  let era := (if 0 ≤ z then z else z - 146096).tdiv 146097
  let doe := z - era * 146097
  let yoe := (doe - doe.tdiv 1460 + doe.tdiv 36524 - doe.tdiv 146096).tdiv 365
  let y := yoe + era * 400
  let doy := doe - (365 * yoe + yoe.tdiv 4 - yoe.tdiv 100)
  let mp := (5 * doy + 2).tdiv 153
  let d := doy - (153 * mp + 2).tdiv 5 + 1
  let m := if mp < 10 then mp + 3 else mp - 9
  ⟨if m ≤ 2 then y + 1 else y, m, d⟩

/-- `days_from_civil`. -/
def daysFromCivil (y m d : Int) : Int :=
  let y := if m ≤ 2 then y - 1 else y
  let era := (if 0 ≤ y then y else y - 399).tdiv 400
  let yoe := y - era * 400
  let mp := if 2 < m then m - 3 else m + 9
  let doy := (153 * mp + 2).tdiv 5 + d - 1
  let doe := yoe * 365 + yoe.tdiv 4 - yoe.tdiv 100 + doy
  era * 146097 + doe - 719468

/-- A division that rounds towards zero, turned into one that rounds down. -/
theorem tdiv_of_floor {a b c : Int} (hb : 0 < b) (hc : c = b - 1) :
    (if 0 ≤ a then a else a - c).tdiv b = a / b := by
  subst hc
  split
  · rename_i ha
    exact Int.tdiv_eq_ediv_of_nonneg ha
  · rename_i ha
    have hneg : a - (b - 1) = -(b - 1 - a) := by omega
    have hpos : 0 ≤ b - 1 - a := by omega
    rw [hneg, Int.neg_tdiv, Int.tdiv_eq_ediv_of_nonneg hpos]
    have hround : a = b * (a / b) + a % b := (Int.mul_ediv_add_emod a b).symm
    have hlow := Int.emod_nonneg a hb.ne'
    have hhigh := Int.emod_lt_of_pos a hb
    have hquot : (b - 1 - a) / b = -(a / b) := by
      have hsum : b - 1 - a = (b - 1 - a % b) + b * (-(a / b)) := by
        rw [Int.mul_neg]
        omega
      rw [hsum, Int.add_mul_ediv_left _ _ hb.ne',
        Int.ediv_eq_zero_of_lt (by omega) (by omega)]
      omega
    omega

/-- The days of the year in the era, its day and its month are those of the
calendar. -/
theorem civilFromDays_eq (z : Int) : civilFromDays z = Calendar.civilFromDays z := by
  obtain ⟨hlow, hhigh⟩ := Calendar.yearStart_yearOf (z + 719468)
  have hsucc := Calendar.yearStart_succ (Calendar.yearOf (z + 719468))
  have hera : (if 0 ≤ z + 719468 then z + 719468 else z + 719468 - 146096).tdiv 146097 =
      (z + 719468) / 146097 := tdiv_of_floor (by decide) (by decide)
  simp only [civilFromDays, Calendar.civilFromDays]
  rw [hera]
  clear hera
  generalize z + 719468 = z' at *
  obtain ⟨era, hera'⟩ : ∃ era, era = z' / 146097 := ⟨_, rfl⟩
  obtain ⟨doe, hdoe⟩ : ∃ doe, doe = z' - era * 146097 := ⟨_, rfl⟩
  have hdoe0 : 0 ≤ doe ∧ doe < 146097 := by omega
  have hyoe : Calendar.yearOf z' =
      (doe - doe / 1460 + doe / 36524 - doe / 146096) / 365 + era * 400 := by
    rw [Calendar.yearOf, ← hera', hdoe]
  have hyears : (doe - doe / 1460 + doe / 36524 - doe / 146096).tdiv 365 =
      (doe - doe / 1460 + doe / 36524 - doe / 146096) / 365 :=
    Int.tdiv_eq_ediv_of_nonneg (by omega)
  simp only [← hera', ← hdoe, Int.tdiv_eq_ediv_of_nonneg hdoe0.1, hyears]
  obtain ⟨yoe, hyoe'⟩ : ∃ yoe,
      yoe = (doe - doe / 1460 + doe / 36524 - doe / 146096) / 365 := ⟨_, rfl⟩
  rw [← hyoe'] at hyoe ⊢
  have hyoe0 : 0 ≤ yoe := by omega
  rw [hyoe] at hlow hhigh hsucc ⊢
  have hdoy : doe - (365 * yoe + yoe / 4 - yoe / 100) =
      z' - Calendar.yearStart (yoe + era * 400) := by
    have hyoe400 : yoe < 400 := by omega
    have h4 : (yoe + era * 400) / 4 = yoe / 4 + 100 * era := by omega
    have h100 : (yoe + era * 400) / 100 = yoe / 100 + 4 * era := by omega
    have h400 : (yoe + era * 400) / 400 = era := by omega
    rw [Calendar.yearStart, h4, h100, h400]
    omega
  rw [Int.tdiv_eq_ediv_of_nonneg hyoe0, Int.tdiv_eq_ediv_of_nonneg hyoe0, hdoy]
  have hdoy0 : 0 ≤ z' - Calendar.yearStart (yoe + era * 400) ∧
      z' - Calendar.yearStart (yoe + era * 400) ≤ 365 := by
    split at hsucc <;> omega
  generalize z' - Calendar.yearStart (yoe + era * 400) = doy at hdoy0
  have hmonth : (5 * doy + 2).tdiv 153 = (5 * doy + 2) / 153 :=
    Int.tdiv_eq_ediv_of_nonneg (by omega)
  rw [hmonth]
  have hmp : 0 ≤ (5 * doy + 2) / 153 ∧ (5 * doy + 2) / 153 ≤ 11 := by omega
  generalize (5 * doy + 2) / 153 = mp at hmp
  have hstart : (153 * mp + 2).tdiv 5 = (153 * mp + 2) / 5 :=
    Int.tdiv_eq_ediv_of_nonneg (by omega)
  rw [hstart]
  simp only [Calendar.monthStart, Date.mk.injEq, and_true]
  split <;> split <;> omega

theorem daysFromCivil_eq {y m d : Int} (hm : 1 ≤ m) :
    daysFromCivil y m d = Calendar.daysFromCivil ⟨y, m, d⟩ := by
  have hera : ∀ a : Int, (if 0 ≤ a then a else a - 399).tdiv 400 = a / 400 :=
    fun a => tdiv_of_floor (by decide) (by decide)
  simp only [daysFromCivil, Calendar.daysFromCivil, Date.marchYear, Date.marchMonth, hera]
  generalize (if m ≤ 2 then y - 1 else y) = y'
  have hmp : 0 ≤ if 2 < m then m - 3 else m + 9 := by
    split <;> omega
  generalize (if 2 < m then m - 3 else m + 9) = mp at hmp
  have hyoe : 0 ≤ y' - y' / 400 * 400 := by omega
  have hstart : (153 * mp + 2).tdiv 5 = (153 * mp + 2) / 5 :=
    Int.tdiv_eq_ediv_of_nonneg (by omega)
  rw [Int.tdiv_eq_ediv_of_nonneg hyoe, Int.tdiv_eq_ediv_of_nonneg hyoe, hstart]
  simp only [Calendar.yearStart, Calendar.monthStart]
  omega

/-! ### The formatter -/

/-- `{n:0width}`: the zeros stand between the sign and the digits. -/
def zeroPad (width : Nat) (n : Int) : List Char :=
  let sign := if n < 0 then ['-'] else []
  let text := Nat.toDigits 10 n.natAbs
  sign ++ (List.replicate (width - sign.length - text.length) '0' ++ text)

/-- `{y:04}-{mo:02}-{d:02}T{h:02}:{mi:02}:{s:02}.{milli:03}Z`. -/
def isoFormat (t : Date) (h mi s milli : Int) : List Char :=
  zeroPad 4 t.year ++ '-' :: (zeroPad 2 t.month ++ '-' :: (zeroPad 2 t.day ++ 'T' ::
    (zeroPad 2 h ++ ':' :: (zeroPad 2 mi ++ ':' :: (zeroPad 2 s ++ '.' ::
      (zeroPad 3 milli ++ ['Z']))))))

structure Civil where
  date : Date
  hour : Int
  min : Int
  sec : Int
  milli : Int
deriving DecidableEq, Repr

def civilFromEpochMs (ms : Int) : Civil :=
  let totalSecs := ms / 1000
  let milli := ms % 1000
  let days := totalSecs / 86400
  let secsOfDay := totalSecs % 86400
  ⟨civilFromDays days, secsOfDay.tdiv 3600, (secsOfDay.tmod 3600).tdiv 60, secsOfDay.tmod 60, milli⟩

def epochMsToIso (ms : Int) : List Char :=
  let c := civilFromEpochMs ms
  isoFormat c.date c.hour c.min c.sec c.milli

/-- The multiplexer's copy, with copies of `civil_from_epoch_ms` and
`civil_from_days` that are the same word for word. -/
def Emitter.epochMsToIso (ms : Int) : List Char :=
  let c := civilFromEpochMs ms
  isoFormat c.date c.hour c.min c.sec c.milli

def Gc.isoFromMs (ms : Int) : List Char :=
  let secs := ms / 1000
  let millis := ms % 1000
  let days := secs / 86400
  let rem := secs % 86400
  isoFormat (civilFromDays days) (rem.tdiv 3600) ((rem.tmod 3600).tdiv 60) (rem.tmod 60) millis

/-! ### The strict parser -/

/-- The value of the bytes from `lo` up to `hi`. -/
def field (b : Bytes) (lo hi : Nat) : Option Nat := decimalField ((b.drop lo).take (hi - lo))

def isoToEpochMs (s : List Char) : Option Int :=
  let b := encodeUtf8 s
  if b.length ≠ 24 then none
  else if b[4]? ≠ some 45 ∨ b[7]? ≠ some 45 ∨ b[10]? ≠ some 84 then none
  else if b[13]? ≠ some 58 ∨ b[16]? ≠ some 58 ∨ b[19]? ≠ some 46 ∨ b[23]? ≠ some 90 then none
  else do
    let year ← field b 0 4
    let month ← field b 5 7
    let day ← field b 8 10
    let hour ← field b 11 13
    let min ← field b 14 16
    let sec ← field b 17 19
    let milli ← field b 20 23
    if ¬(1 ≤ month ∧ month ≤ 12) ∨ ¬(1 ≤ day ∧ day ≤ 31) then none
    else if 23 < hour ∨ 59 < min ∨ 59 < sec then none
    else
      let days := daysFromCivil year month day
      if civilFromDays days ≠ ⟨year, month, day⟩ then none
      else some ((days * 86400 + hour * 3600 + min * 60 + sec) * 1000 + milli)

/-! ### The fields of an instant -/

def InYears (ms : Int) : Prop :=
  0 ≤ (civilFromEpochMs ms).date.year ∧ (civilFromEpochMs ms).date.year ≤ 9999

instance (ms : Int) : Decidable (InYears ms) := inferInstanceAs (Decidable (_ ∧ _))

/-- What `civil_from_epoch_ms` returns, and how the instant comes back from it. -/
structure Civil.Spells (c : Civil) (ms : Int) : Prop where
  date : c.date.Valid
  hour : 0 ≤ c.hour ∧ c.hour ≤ 23
  min : 0 ≤ c.min ∧ c.min ≤ 59
  sec : 0 ≤ c.sec ∧ c.sec ≤ 59
  milli : 0 ≤ c.milli ∧ c.milli ≤ 999
  instant : ms = (Calendar.daysFromCivil c.date * 86400 + c.hour * 3600 + c.min * 60 + c.sec) * 1000 +
    c.milli

theorem civilFromEpochMs_spells (ms : Int) : (civilFromEpochMs ms).Spells ms := by
  have hsecs : 0 ≤ ms / 1000 % 86400 ∧ ms / 1000 % 86400 < 86400 := by omega
  have hdate : (civilFromEpochMs ms).date = Calendar.civilFromDays (ms / 1000 / 86400) :=
    civilFromDays_eq _
  have hhour : (civilFromEpochMs ms).hour = ms / 1000 % 86400 / 3600 :=
    Int.tdiv_eq_ediv_of_nonneg hsecs.1
  have hmin : (civilFromEpochMs ms).min = ms / 1000 % 86400 % 3600 / 60 := by
    simp only [civilFromEpochMs]
    rw [Int.tmod_eq_emod_of_nonneg hsecs.1, Int.tdiv_eq_ediv_of_nonneg (by omega)]
  have hsec : (civilFromEpochMs ms).sec = ms / 1000 % 86400 % 60 :=
    Int.tmod_eq_emod_of_nonneg hsecs.1
  have hmilli : (civilFromEpochMs ms).milli = ms % 1000 := rfl
  constructor
  · rw [hdate]
    exact Calendar.civilFromDays_valid _
  · omega
  · omega
  · omega
  · omega
  · rw [hdate, Calendar.daysFromCivil_civilFromDays]
    omega

theorem Civil.Spells.eq {c : Civil} {ms : Int} (h : c.Spells ms) : civilFromEpochMs ms = c := by
  have h' := civilFromEpochMs_spells ms
  obtain ⟨hdate', hhour', hmin', hsec', hmilli', hinst'⟩ := h'
  obtain ⟨hdate, hhour, hmin, hsec, hmilli, hinst⟩ := h
  have hdays : Calendar.daysFromCivil (civilFromEpochMs ms).date = Calendar.daysFromCivil c.date := by
    omega
  have hd := Calendar.daysFromCivil_injective hdate' hdate hdays
  generalize civilFromEpochMs ms = c' at *
  obtain ⟨date', hour', min', sec', milli'⟩ := c'
  obtain ⟨date, hour, min, sec, milli⟩ := c
  dsimp only at *
  subst hd
  simp only [Civil.mk.injEq, true_and]
  omega

/-! ### The bytes of a timestamp -/

def isoBytes (y mo d h mi s milli : Nat) : Bytes :=
  encodeUtf8 (digits 4 y) ++ 45 :: (encodeUtf8 (digits 2 mo) ++ 45 :: (encodeUtf8 (digits 2 d) ++
    84 :: (encodeUtf8 (digits 2 h) ++ 58 :: (encodeUtf8 (digits 2 mi) ++ 58 ::
      (encodeUtf8 (digits 2 s) ++ 46 :: (encodeUtf8 (digits 3 milli) ++ [90]))))))

theorem zeroPad_natCast {width n : Nat} (hpos : 0 < width) (h : n < 10 ^ width) :
    zeroPad width n = digits width n := by
  have hsign : ¬ (n : Int) < 0 := by omega
  rw [zeroPad, if_neg hsign, ← leftpad_toDigits hpos h]
  rfl

def isoText (y mo d h mi s milli : Nat) : List Char :=
  digits 4 y ++ '-' :: (digits 2 mo ++ '-' :: (digits 2 d ++ 'T' :: (digits 2 h ++ ':' ::
    (digits 2 mi ++ ':' :: (digits 2 s ++ '.' :: (digits 3 milli ++ ['Z']))))))

theorem isoFormat_eq {y mo d h mi s milli : Nat} (hy : y < 10 ^ 4) (hmo : mo < 10 ^ 2)
    (hd : d < 10 ^ 2) (hh : h < 10 ^ 2) (hmi : mi < 10 ^ 2) (hs : s < 10 ^ 2)
    (hmilli : milli < 10 ^ 3) :
    isoFormat ⟨y, mo, d⟩ h mi s milli = isoText y mo d h mi s milli := by
  simp only [isoFormat, isoText, zeroPad_natCast (by decide : 0 < 4) hy,
    zeroPad_natCast (by decide : 0 < 2) hmo, zeroPad_natCast (by decide : 0 < 2) hd,
    zeroPad_natCast (by decide : 0 < 2) hh, zeroPad_natCast (by decide : 0 < 2) hmi,
    zeroPad_natCast (by decide : 0 < 2) hs, zeroPad_natCast (by decide : 0 < 3) hmilli]

theorem encodeUtf8_isoText (y mo d h mi s milli : Nat) :
    encodeUtf8 (isoText y mo d h mi s milli) = isoBytes y mo d h mi s milli := by
  have hcons : ∀ (c : Char) (cs : List Char), encodeUtf8 (c :: cs) =
      String.utf8EncodeChar c ++ encodeUtf8 cs := fun _ _ => rfl
  have hdash : String.utf8EncodeChar '-' = [45] := by decide
  have hT : String.utf8EncodeChar 'T' = [84] := by decide
  have hcolon : String.utf8EncodeChar ':' = [58] := by decide
  have hdot : String.utf8EncodeChar '.' = [46] := by decide
  have hZ : String.utf8EncodeChar 'Z' = [90] := by decide
  simp only [isoText, isoBytes, encodeUtf8_append, encodeUtf8_nil, hcons, hdash, hT, hcolon, hdot,
    hZ, List.cons_append, List.nil_append]

theorem drop_eq_cut {b : Bytes} {n width : Nat} {c : UInt8} (h : b[n + width]? = some c) :
    b.drop n = (b.drop n).take width ++ c :: b.drop (n + width + 1) := by
  obtain ⟨hlt, hc⟩ := List.getElem?_eq_some_iff.mp h
  have hcut := (List.take_append_drop width (b.drop n)).symm
  rwa [List.drop_drop, List.drop_eq_getElem_cons hlt, hc] at hcut

theorem field_eq_some {b : Bytes} {lo hi n : Nat} (h : field b lo hi = some n)
    (hlen : hi ≤ b.length) :
    n < 10 ^ (hi - lo) ∧ (b.drop lo).take (hi - lo) = encodeUtf8 (digits (hi - lo) n) := by
  have hwidth : ((b.drop lo).take (hi - lo)).length = hi - lo := by
    rw [List.length_take, List.length_drop]
    omega
  have := decimalField_eq_some.mp h
  rwa [hwidth] at this

theorem field_of_append {xs ys zs : Bytes} {lo hi n : Nat} (hlo : xs.length = lo)
    (hys : ys = encodeUtf8 (digits (hi - lo) n)) (hn : n < 10 ^ (hi - lo)) :
    field (xs ++ (ys ++ zs)) lo hi = some n := by
  have hlen : ys.length = hi - lo := by
    rw [hys, length_encodeUtf8_digits]
  rw [field, List.drop_left' hlo, List.take_left' hlen, decimalField_eq_some, hlen]
  exact ⟨hn, hys⟩

theorem getElem?_append_cons {xs ys : Bytes} {c : UInt8} {n : Nat} (h : xs.length = n) :
    (xs ++ c :: ys)[n]? = some c := by
  subst h
  simp

structure Reads (b : Bytes) (y mo d h mi s milli : Nat) : Prop where
  length : b.length = 24
  dates : b[4]? = some 45 ∧ b[7]? = some 45 ∧ b[10]? = some 84
  times : b[13]? = some 58 ∧ b[16]? = some 58 ∧ b[19]? = some 46 ∧ b[23]? = some 90
  year : field b 0 4 = some y
  month : field b 5 7 = some mo
  day : field b 8 10 = some d
  hour : field b 11 13 = some h
  min : field b 14 16 = some mi
  sec : field b 17 19 = some s
  milli : field b 20 23 = some milli

section Reads

variable {b : Bytes} {y mo d h mi s milli : Nat}

theorem Reads.eq_isoBytes (hb : Reads b y mo d h mi s milli) : b = isoBytes y mo d h mi s milli := by
  have hlen := hb.length
  obtain ⟨h4, h7, h10⟩ := hb.dates
  obtain ⟨h13, h16, h19, h23⟩ := hb.times
  have hy := drop_eq_cut (show b[0 + 4]? = some 45 from h4)
  have hmo := drop_eq_cut (show b[5 + 2]? = some 45 from h7)
  have hd := drop_eq_cut (show b[8 + 2]? = some 84 from h10)
  have hh := drop_eq_cut (show b[11 + 2]? = some 58 from h13)
  have hmi := drop_eq_cut (show b[14 + 2]? = some 58 from h16)
  have hs := drop_eq_cut (show b[17 + 2]? = some 46 from h19)
  have hmilli := drop_eq_cut (show b[20 + 3]? = some 90 from h23)
  have hend : b.drop (20 + 3 + 1) = [] := List.drop_eq_nil_of_le (by omega)
  have hfield : ∀ {lo hi n : Nat}, field b lo hi = some n → hi ≤ 24 →
      (b.drop lo).take (hi - lo) = encodeUtf8 (digits (hi - lo) n) :=
    fun hf hle => (field_eq_some hf (by omega)).2
  have ey := hfield hb.year (by decide)
  have emo := hfield hb.month (by decide)
  have ed := hfield hb.day (by decide)
  have eh := hfield hb.hour (by decide)
  have emi := hfield hb.min (by decide)
  have es := hfield hb.sec (by decide)
  have emilli := hfield hb.milli (by decide)
  simp only [Nat.reduceSub, Nat.reduceAdd] at *
  rw [ey, hmo, emo, hd, ed, hh, eh, hmi, emi, hs, es, hmilli, emilli, hend] at hy
  exact hy

theorem reads_isoBytes (hy : y < 10 ^ 4) (hmo : mo < 10 ^ 2) (hd : d < 10 ^ 2) (hh : h < 10 ^ 2)
    (hmi : mi < 10 ^ 2) (hs : s < 10 ^ 2) (hmilli : milli < 10 ^ 3) :
    Reads (isoBytes y mo d h mi s milli) y mo d h mi s milli := by
  -- the front parts up to each separator
  obtain ⟨p1, hp1⟩ : ∃ p, p = encodeUtf8 (digits 4 y) := ⟨_, rfl⟩
  obtain ⟨p2, hp2⟩ : ∃ p, p = p1 ++ 45 :: encodeUtf8 (digits 2 mo) := ⟨_, rfl⟩
  obtain ⟨p3, hp3⟩ : ∃ p, p = p2 ++ 45 :: encodeUtf8 (digits 2 d) := ⟨_, rfl⟩
  obtain ⟨p4, hp4⟩ : ∃ p, p = p3 ++ 84 :: encodeUtf8 (digits 2 h) := ⟨_, rfl⟩
  obtain ⟨p5, hp5⟩ : ∃ p, p = p4 ++ 58 :: encodeUtf8 (digits 2 mi) := ⟨_, rfl⟩
  obtain ⟨p6, hp6⟩ : ∃ p, p = p5 ++ 58 :: encodeUtf8 (digits 2 s) := ⟨_, rfl⟩
  obtain ⟨p7, hp7⟩ : ∃ p, p = p6 ++ 46 :: encodeUtf8 (digits 3 milli) := ⟨_, rfl⟩
  have l1 : p1.length = 4 := by simp [hp1]
  have l2 : p2.length = 7 := by simp [hp2, l1]
  have l3 : p3.length = 10 := by simp [hp3, l2]
  have l4 : p4.length = 13 := by simp [hp4, l3]
  have l5 : p5.length = 16 := by simp [hp5, l4]
  have l6 : p6.length = 19 := by simp [hp6, l5]
  have l7 : p7.length = 23 := by simp [hp7, l6]
  have e7 : isoBytes y mo d h mi s milli = p7 ++ 90 :: [] := by
    simp [isoBytes, hp1, hp2, hp3, hp4, hp5, hp6, hp7]
  have e6 : p7 ++ 90 :: [] = p6 ++ 46 :: (encodeUtf8 (digits 3 milli) ++ [90]) := by simp [hp7]
  have e5 : ∀ rest, p6 ++ rest = p5 ++ 58 :: (encodeUtf8 (digits 2 s) ++ rest) := by simp [hp6]
  have e4 : ∀ rest, p5 ++ rest = p4 ++ 58 :: (encodeUtf8 (digits 2 mi) ++ rest) := by simp [hp5]
  have e3 : ∀ rest, p4 ++ rest = p3 ++ 84 :: (encodeUtf8 (digits 2 h) ++ rest) := by simp [hp4]
  have e2 : ∀ rest, p3 ++ rest = p2 ++ 45 :: (encodeUtf8 (digits 2 d) ++ rest) := by simp [hp3]
  have e1 : ∀ rest, p2 ++ rest = p1 ++ 45 :: (encodeUtf8 (digits 2 mo) ++ rest) := by simp [hp2]
  have split : ∀ (p : Bytes) (c : UInt8) (rest : Bytes), p ++ c :: rest = (p ++ [c]) ++ rest := by
    simp
  rw [e7]
  constructor
  · simp [l7]
  · refine ⟨?_, ?_, ?_⟩
    · rw [e6, e5, e4, e3, e2, e1]
      exact getElem?_append_cons l1
    · rw [e6, e5, e4, e3, e2]
      exact getElem?_append_cons l2
    · rw [e6, e5, e4, e3]
      exact getElem?_append_cons l3
  · refine ⟨?_, ?_, ?_, ?_⟩
    · rw [e6, e5, e4]
      exact getElem?_append_cons l4
    · rw [e6, e5]
      exact getElem?_append_cons l5
    · rw [e6]
      exact getElem?_append_cons l6
    · exact getElem?_append_cons l7
  · rw [e6, e5, e4, e3, e2, e1, ← List.nil_append p1, List.append_assoc]
    exact field_of_append rfl hp1 hy
  · rw [e6, e5, e4, e3, e2, e1, split]
    exact field_of_append (by simp [l1]) rfl hmo
  · rw [e6, e5, e4, e3, e2, split]
    exact field_of_append (by simp [l2]) rfl hd
  · rw [e6, e5, e4, e3, split]
    exact field_of_append (by simp [l3]) rfl hh
  · rw [e6, e5, e4, split]
    exact field_of_append (by simp [l4]) rfl hmi
  · rw [e6, e5, split]
    exact field_of_append (by simp [l5]) rfl hs
  · rw [e6, split]
    exact field_of_append (by simp [l6]) rfl hmilli

end Reads

/-- What the strict parser checks of the fields it has read, and its result. -/
theorem isoToEpochMs_eq_some {text : List Char} {ms : Int} :
    isoToEpochMs text = some ms ↔
      ∃ y mo d h mi s milli : Nat, Reads (encodeUtf8 text) y mo d h mi s milli ∧
        (1 ≤ mo ∧ mo ≤ 12) ∧ (1 ≤ d ∧ d ≤ 31) ∧ h ≤ 23 ∧ mi ≤ 59 ∧ s ≤ 59 ∧
        civilFromDays (daysFromCivil y mo d) = ⟨y, mo, d⟩ ∧
        ms = (daysFromCivil y mo d * 86400 + h * 3600 + mi * 60 + s) * 1000 + milli := by
  unfold isoToEpochMs
  generalize encodeUtf8 text = b
  constructor
  · intro hparse
    simp only [ne_eq, Option.bind_eq_bind, Option.bind_eq_some_iff, Option.ite_none_left_eq_some]
      at hparse
    obtain ⟨hlen, hdates, htimes, y, hy, mo, hmo, d, hd, h, hh, mi, hmi, s, hs, milli, hmilli,
      hrange, hclock, hdate, heq⟩ := hparse
    refine ⟨y, mo, d, h, mi, s, milli, ⟨by simpa using hlen, ?_, ?_, hy, hmo, hd, hh, hmi, hs, hmilli⟩,
      by omega, by omega, by omega, by omega, by omega, by simpa using hdate, ?_⟩
    · simpa [not_or] using hdates
    · simpa [not_or] using htimes
    · exact (Option.some.inj heq).symm
  · rintro ⟨y, mo, d, h, mi, s, milli, ⟨hlen, ⟨h4, h7, h10⟩, ⟨h13, h16, h19, h23⟩, hy, hmo, hd, hh, hmi,
      hs, hmilli⟩, hmonth, hday, hhour, hmin, hsec, hdate, rfl⟩
    have hrange : ¬ (¬ (1 ≤ mo ∧ mo ≤ 12) ∨ ¬ (1 ≤ d ∧ d ≤ 31)) := by omega
    have hclock : ¬ (23 < h ∨ 59 < mi ∨ 59 < s) := by omega
    simp only [ne_eq, Option.bind_eq_bind, Option.bind_eq_some_iff, Option.ite_none_left_eq_some]
    refine ⟨by simpa using hlen, ?_, ?_, y, hy, mo, hmo, d, hd, h, hh, mi, hmi, s, hs, milli, hmilli,
      hrange, hclock, by simpa using hdate, rfl⟩
    · rw [h4, h7, h10]
      simp
    · rw [h13, h16, h19, h23]
      simp

theorem epochMsToIso_eq {y mo d h mi s milli : Nat} {ms : Int} (hy : y ≤ 9999)
    (hc : Civil.Spells ⟨⟨y, mo, d⟩, h, mi, s, milli⟩ ms) :
    epochMsToIso ms = isoText y mo d h mi s milli := by
  have hmonth := hc.date.month
  have hday := hc.date.day
  have hlength := Calendar.monthLength_le y mo
  have hhour := hc.hour
  have hmin := hc.min
  have hsec := hc.sec
  have hmilli := hc.milli
  rw [epochMsToIso, hc.eq]
  dsimp only at *
  exact isoFormat_eq (by omega) (by omega) (by omega) (by omega) (by omega) (by omega)
    (by omega)

theorem InYears.fields {ms : Int} (h : InYears ms) :
    ∃ y mo d h mi s milli : Nat, y ≤ 9999 ∧ Civil.Spells ⟨⟨y, mo, d⟩, h, mi, s, milli⟩ ms := by
  have hc := civilFromEpochMs_spells ms
  obtain ⟨hlow, hhigh⟩ := h
  have hmonth := hc.date.month
  have hday := hc.date.day
  have hhour := hc.hour
  have hmin := hc.min
  have hsec := hc.sec
  have hmilli := hc.milli
  generalize civilFromEpochMs ms = c at *
  obtain ⟨⟨y, mo, d⟩, h, mi, s, milli⟩ := c
  dsimp only at *
  lift y to Nat using hlow
  lift mo to Nat using by omega
  lift d to Nat using by omega
  lift h to Nat using hhour.1
  lift mi to Nat using hmin.1
  lift s to Nat using hsec.1
  lift milli to Nat using hmilli.1
  exact ⟨y, mo, d, h, mi, s, milli, by omega, hc⟩

/-- The strict parser takes the texts of the formatter and gives back their
instants, and takes nothing else. -/
theorem isoToEpochMs_iff {text : List Char} {ms : Int} :
    isoToEpochMs text = some ms ↔ InYears ms ∧ text = epochMsToIso ms := by
  rw [isoToEpochMs_eq_some]
  constructor
  · rintro ⟨y, mo, d, h, mi, s, milli, hreads, hmonth, hday, hhour, hmin, hsec, hdate, rfl⟩
    have hlen := hreads.length
    have hy := (field_eq_some hreads.year (by omega)).1
    have hmilli := (field_eq_some hreads.milli (by omega)).1
    have hmo1 : (1 : Int) ≤ mo := by omega
    have hvalid : Date.Valid ⟨y, mo, d⟩ := by
      rw [← hdate, civilFromDays_eq]
      exact Calendar.civilFromDays_valid _
    have hc : Civil.Spells ⟨⟨y, mo, d⟩, h, mi, s, milli⟩
        ((daysFromCivil y mo d * 86400 + h * 3600 + mi * 60 + s) * 1000 + milli) := by
      refine ⟨hvalid, ?_, ?_, ?_, ?_, ?_⟩
      · dsimp only
        omega
      · dsimp only
        omega
      · dsimp only
        omega
      · dsimp only
        omega
      · rw [daysFromCivil_eq hmo1]
    constructor
    · rw [InYears, hc.eq]
      dsimp only
      omega
    · apply encodeUtf8_injective
      rw [epochMsToIso_eq (by omega) hc, encodeUtf8_isoText]
      exact hreads.eq_isoBytes
  · rintro ⟨hyears, rfl⟩
    obtain ⟨y, mo, d, h, mi, s, milli, hy, hc⟩ := hyears.fields
    have hmonth := hc.date.month
    have hday := hc.date.day
    have hlength := Calendar.monthLength_le y mo
    have hhour := hc.hour
    have hmin := hc.min
    have hsec := hc.sec
    have hmilli := hc.milli
    have hinst := hc.instant
    dsimp only at *
    refine ⟨y, mo, d, h, mi, s, milli, ?_, by omega, by omega, by omega, by omega, by omega, ?_, ?_⟩
    · rw [epochMsToIso_eq hy hc, encodeUtf8_isoText]
      exact reads_isoBytes (by omega) (by omega) (by omega) (by omega) (by omega) (by omega)
        (by omega)
    · rw [daysFromCivil_eq (by omega), civilFromDays_eq,
        Calendar.civilFromDays_daysFromCivil hc.date]
    · rw [daysFromCivil_eq (by omega)]
      exact hinst

end QuorumDispatch.Timefmt
