import Mathlib.Data.List.DropRight
import QuorumDispatch.Lib.Lines
import QuorumDispatch.Provider.Attribution
import QuorumDispatch.Timefmt.Iso

/-!
The two parsers that take more than the formatter writes. That of the delivery
events reads numbers of any length and computes with them in 64 bits; that of
the collector reads fields of a fixed width.
-/

namespace QuorumDispatch.Timefmt

open Lib
open Provider (splitOnce splitOnce_append)

/-! ### Pieces -/

/-- `str::split` at a character. -/
def pieces (sep : Char) (s : List Char) : List (List Char) :=
  (Lines.of sep s).terminated ++ [(Lines.of sep s).tail]

/-! ### The parser of the delivery events -/

/-- `civil_to_epoch_ms`, every operation checked. -/
def civilToEpochMs (y mo d h mi s millis : Int) : Option Int := do
  let y ← (if mo ≤ 2 then i64 (y - 1) else some y)
  let era := (← (if 0 ≤ y then some y else i64 (y - 399))).tdiv 400
  let yoe ← i64 (y - (← i64 (era * 400)))
  let mp ← (if 2 < mo then i64 (mo - 3) else i64 (mo + 9))
  let doy ← i64 ((← i64 ((← i64 (153 * mp)) + 2)).tdiv 5 + d)
  let doy ← i64 (doy - 1)
  let doe ← i64 ((← i64 ((← i64 (yoe * 365)) + yoe.tdiv 4)) - yoe.tdiv 100)
  let doe ← i64 (doe + doy)
  let days ← i64 ((← i64 ((← i64 (era * 146097)) + doe)) - 719468)
  let secs ← i64 ((← i64 (days * 86400)) + (← i64 (h * 3600)))
  let secs ← i64 (secs + (← i64 (mi * 60)))
  let secs ← i64 (secs + s)
  i64 ((← i64 (secs * 1000)) + millis)

/-- The date in front of the first `T`, and what stands behind it. -/
def dateParts (s : List Char) : Option (Int × Int × Int × List Char) := do
  let (date, rest) ← splitOnce ['T'] s
  let parts := pieces '-' date
  let y ← parts[0]?.bind parseI64
  let mo ← parts[1]?.bind parseI64
  let d ← parts[2]?.bind parseI64
  return (y, mo, d, rest)

/-- The time without its fraction, and the first three digits of that as
milliseconds. -/
def timeAndMillis (rest : List Char) : Option (List Char × Int) :=
  let rest := rest.rdropWhile (· == 'Z')
  match splitOnce ['.'] rest with
  | some (t, frac) => do
      let ms := (parseI64 (frac.take 3)).getD 0
      let digits := (frac.take 3).length
      return (t, ← i64 (ms * 10 ^ (3 - digits)))
  | none => some (rest, 0)

def timeParts (time : List Char) : Option (Int × Int × Int) := do
  let parts := pieces ':' time
  let h ← parts[0]?.bind parseI64
  let mi ← parts[1]?.bind parseI64
  let se ← parseI64 (parts[2]?.getD ['0'])
  return (h, mi, se)

/-- `iso_to_epoch_ms` of the events: `none` on an overflow, else what it
returns. -/
def Lenient.isoToEpochMs (s : List Char) : Option (Option Int) :=
  match dateParts (trim s) with
  | none => some none
  | some (y, mo, d, rest) => do
      let (time, millis) ← timeAndMillis rest
      match timeParts time with
      | none => return none
      | some (h, mi, se) => return some (← civilToEpochMs y mo d h mi se millis)

/-! ### The parser of the collector -/

/-- `str::get` of a range of bytes: a text, where the range does not cut a
character. -/
def getRange (b : Bytes) (lo hi : Nat) : Option (List Char) :=
  if hi ≤ b.length then decodeUtf8 ((b.drop lo).take (hi - lo)) else none

def Gc.parseIsoMs (iso : List Char) : Option Int :=
  let b := encodeUtf8 iso
  if b.length < 19 then none
  else do
    let y ← (getRange b 0 4).bind parseI64
    let mo ← (getRange b 5 7).bind parseI64
    let d ← (getRange b 8 10).bind parseI64
    let h ← (getRange b 11 13).bind parseI64
    let mi ← (getRange b 14 16).bind parseI64
    let s ← (getRange b 17 19).bind parseI64
    let millis ← (if 23 ≤ b.length ∧ b[19]? = some 46 then (getRange b 20 23).bind parseI64
      else some 0)
    let days := daysFromCivil y mo d
    return (days * 86400 + h * 3600 + mi * 60 + s) * 1000 + millis

/-! ### Overflow -/

theorem i64_bind_eq_some {n r : Int} {f : Int → Option Int} :
    (i64 n >>= f) = some r ↔ InI64 n ∧ f n = some r := by
  by_cases h : InI64 n
  · simp [i64_of_inI64 h, h]
  · have hnone : i64 n = none := if_neg h
    simp [hnone, h]

/-- The numbers that a text spells, where the parser reads them all. -/
structure Written where
  year : Int
  month : Int
  day : Int
  hour : Int
  min : Int
  sec : Int
  millis : Int
deriving DecidableEq, Repr

namespace Written

/-- The days from 1970-01-01 to the date, counted without a bound. -/
def days (w : Written) : Int := daysFromCivil w.year w.month w.day

/-- The numbers are small enough for 64 bits: the day number, the hours and the
minutes, the seconds from the days and the hours, those with the minutes, the
seconds of the instant and its milliseconds. -/
structure InReach (w : Written) : Prop where
  days : w.days ≤ 106751991167300
  hour : -2562047788015215 ≤ w.hour ∧ w.hour ≤ 2562047788015215
  min : -153722867280912930 ≤ w.min ∧ w.min ≤ 153722867280912930
  hours : InI64 (w.days * 86400 + w.hour * 3600)
  mins : InI64 (w.days * 86400 + w.hour * 3600 + w.min * 60)
  secs : -9223372036854775 ≤ w.days * 86400 + w.hour * 3600 + w.min * 60 + w.sec ∧
    w.days * 86400 + w.hour * 3600 + w.min * 60 + w.sec ≤ 9223372036854775
  millis : InI64 ((w.days * 86400 + w.hour * 3600 + w.min * 60 + w.sec) * 1000 + w.millis)

end Written

theorem civilToEpochMs_eq_some {w : Written} (hy : 0 ≤ w.year ∧ InI64 w.year)
    (hmo : 0 ≤ w.month ∧ InI64 w.month) (hd : 0 ≤ w.day) {r : Int} :
    civilToEpochMs w.year w.month w.day w.hour w.min w.sec w.millis = some r ↔
      w.InReach ∧ (w.days * 86400 + w.hour * 3600 + w.min * 60 + w.sec) * 1000 + w.millis = r := by
  obtain ⟨y, mo, d, h, mi, s, millis⟩ := w
  obtain ⟨hy, -, hylt⟩ := hy
  obtain ⟨hmo, -, hmolt⟩ := hmo
  dsimp only at *
  -- the year and the month stay small, whatever the text says
  obtain ⟨year, hyear⟩ : ∃ year, year = if mo ≤ 2 then y - 1 else y := ⟨_, rfl⟩
  obtain ⟨mp, hmp⟩ : ∃ mp, mp = if 2 < mo then mo - 3 else mo + 9 := ⟨_, rfl⟩
  have hyear0 : -1 ≤ year ∧ year < 2 ^ 63 := by
    split at hyear <;> omega
  have hmp0 : 0 ≤ mp ∧ mp < 2 ^ 63 := by
    split at hmp <;> omega
  have eyear : (if mo ≤ 2 then i64 (y - 1) else some y) = some year := by
    rw [hyear]
    split
    · exact i64_of_inI64 ⟨by omega, by omega⟩
    · rfl
  have emp : (if 2 < mo then i64 (mo - 3) else i64 (mo + 9)) = some mp := by
    rw [hmp]
    split
    · exact i64_of_inI64 ⟨by omega, by omega⟩
    · exact i64_of_inI64 ⟨by omega, by omega⟩
  have eera : (if 0 ≤ year then some year else i64 (year - 399)) =
      some (if 0 ≤ year then year else year - 399) := by
    split
    · rfl
    · exact i64_of_inI64 ⟨by omega, by omega⟩
  have hera : (if 0 ≤ year then year else year - 399).tdiv 400 = year / 400 :=
    tdiv_of_floor (by decide) (by decide)
  have hyoe : 0 ≤ year - year / 400 * 400 ∧ year - year / 400 * 400 < 400 := by omega
  have hdays : daysFromCivil y mo d = year / 400 * 146097 +
      ((year - year / 400 * 400) * 365 + (year - year / 400 * 400) / 4 -
        (year - year / 400 * 400) / 100 + ((153 * mp + 2) / 5 + d - 1)) - 719468 := by
    simp only [daysFromCivil]
    rw [← hyear, ← hmp, hera, Int.tdiv_eq_ediv_of_nonneg hyoe.1, Int.tdiv_eq_ediv_of_nonneg hyoe.1,
      Int.tdiv_eq_ediv_of_nonneg (show 0 ≤ 153 * mp + 2 by omega)]
  have hmonth : (153 * mp + 2).tdiv 5 = (153 * mp + 2) / 5 :=
    Int.tdiv_eq_ediv_of_nonneg (by omega)
  have hsome : ∀ (n : Int) (f : Int → Option Int), (some n >>= f) = f n := fun _ _ => rfl
  rw [civilToEpochMs, eyear, hsome, eera, hsome, hera, emp]
  simp only [hsome, i64_bind_eq_some, i64_eq_some, hmonth, Int.tdiv_eq_ediv_of_nonneg hyoe.1]
  obtain ⟨doe, hdoe⟩ : ∃ doe, doe = (year - year / 400 * 400) * 365 +
      (year - year / 400 * 400) / 4 - (year - year / 400 * 400) / 100 := ⟨_, rfl⟩
  rw [← hdoe] at hdays ⊢
  have hdoe0 : 0 ≤ doe ∧ doe < 146097 := by omega
  have hera0 : -1 ≤ year / 400 := by omega
  have hmday : 0 ≤ (153 * mp + 2) / 5 := by omega
  rw [← hdays]
  have hneg : -719468 - 146097 - 1 ≤ daysFromCivil y mo d := by omega
  constructor
  · rintro ⟨-, -, -, -, -, -, -, -, -, -, -, -, -, hday, hhour, hhours, hmin, hmins, hsum, hsecs,
      hmillis, rfl⟩
    refine ⟨⟨?_, ?_, ?_, hhours, hmins, ?_, hmillis⟩, rfl⟩
    all_goals
      simp only [InI64, Written.days] at *
      omega
  · rintro ⟨⟨hday, hhour, hmin, hhours, hmins, hsecs, hmillis⟩, rfl⟩
    simp only [Written.days] at hday hhours hmins hsecs hmillis
    -- the day number bounds everything it was put together from
    have hmp1 : 153 * mp ≤ 5 * (daysFromCivil y mo d + 719468 + 146097 + 2) := by omega
    refine ⟨?_, ?_, ?_, ?_, ?_, ?_, ?_, ?_, ?_, ?_, ?_, ?_, ?_, ?_, ?_, hhours, ?_, hmins, ?_, ?_,
      hmillis, rfl⟩
    all_goals
      simp only [InI64] at *
      omega

/-! ### What the parser hands on -/

theorem notMem_of_mem_pieces {sep : Char} {s p : List Char} (h : p ∈ pieces sep s) : sep ∉ p := by
  have hinv : (∀ p ∈ (Lines.of sep s).terminated, sep ∉ p) ∧ sep ∉ (Lines.of sep s).tail := by
    clear h
    induction s using List.reverseRecOn with
    | nil => exact ⟨by simp [Lines.of_nil], by simp [Lines.of_nil]⟩
    | append_singleton s c ih =>
        rw [Lines.of_append, Lines.extend_cons, Lines.extend_nil, Lines.push]
        split
        · refine ⟨?_, List.not_mem_nil⟩
          intro p hp
          rcases List.mem_append.mp hp with hp | hp
          · exact ih.1 p hp
          · exact List.mem_singleton.mp hp ▸ ih.2
        · rename_i hc
          refine ⟨ih.1, ?_⟩
          simp only [List.mem_append, List.mem_singleton, not_or]
          exact ⟨ih.2, fun heq => hc heq.symm⟩
  rcases List.mem_append.mp h with hp | hp
  · exact hinv.1 p hp
  · exact List.mem_singleton.mp hp ▸ hinv.2

theorem datePart_nonneg {date : List Char} {i : Nat} {n : Int}
    (h : (pieces '-' date)[i]?.bind parseI64 = some n) : 0 ≤ n ∧ InI64 n := by
  obtain ⟨p, hp, hn⟩ := Option.bind_eq_some_iff.mp h
  obtain ⟨hrange, -, hsign⟩ := parseI64_eq_some hn
  exact ⟨hsign (notMem_of_mem_pieces (List.mem_of_getElem? hp)), hrange⟩

theorem dateParts_nonneg {s rest : List Char} {y mo d : Int}
    (h : dateParts s = some (y, mo, d, rest)) :
    (0 ≤ y ∧ InI64 y) ∧ (0 ≤ mo ∧ InI64 mo) ∧ 0 ≤ d := by
  simp only [dateParts, Option.bind_eq_bind, Option.bind_eq_some_iff] at h
  obtain ⟨⟨date, rest'⟩, -, y', hy, mo', hmo, d', hd, heq⟩ := h
  cases heq
  have hpart : ∀ {i : Nat} {n : Int},
      (∃ p, (pieces '-' date)[i]? = some p ∧ parseI64 p = some n) → 0 ≤ n ∧ InI64 n :=
    fun hn => datePart_nonneg (Option.bind_eq_some_iff.mpr hn)
  exact ⟨hpart hy, hpart hmo, (hpart hd).1⟩

theorem timeAndMillis_isSome (rest : List Char) : ∃ tm, timeAndMillis rest = some tm := by
  unfold timeAndMillis
  dsimp only
  split
  · rename_i t frac _
    have hsmall : InI64 ((parseI64 (frac.take 3)).getD 0 * 10 ^ (3 - (frac.take 3).length)) := by
      have hlen : (frac.take 3).length ≤ 3 := List.length_take_le 3 frac
      cases hms : parseI64 (frac.take 3) with
      | none =>
          rw [Option.getD_none, Int.zero_mul]
          exact ⟨by decide, by decide⟩
      | some ms =>
          obtain ⟨-, ⟨k, hk, hsign⟩, -⟩ := parseI64_eq_some hms
          have hpow : k * 10 ^ (3 - (frac.take 3).length) < 10 ^ 3 := by
            calc k * 10 ^ (3 - (frac.take 3).length)
                < 10 ^ (frac.take 3).length * 10 ^ (3 - (frac.take 3).length) :=
                  Nat.mul_lt_mul_of_pos_right hk (Nat.pow_pos (by decide))
              _ = 10 ^ 3 := by rw [← Nat.pow_add, Nat.add_sub_cancel' hlen]
          have hcast : ((k * 10 ^ (3 - (frac.take 3).length) : Nat) : Int) =
              (k : Int) * 10 ^ (3 - (frac.take 3).length) := by push_cast; rfl
          have hle : (k : Int) * 10 ^ (3 - (frac.take 3).length) < 1000 := by
            rw [← hcast]
            omega
          have hnonneg : 0 ≤ (k : Int) * 10 ^ (3 - (frac.take 3).length) := by
            rw [← hcast]
            omega
          rw [Option.getD_some]
          rcases hsign with rfl | rfl
          · exact ⟨by omega, by omega⟩
          · rw [Int.neg_mul]
            exact ⟨by omega, by omega⟩
    exact ⟨_, by rw [i64_of_inI64 hsmall]; rfl⟩
  · exact ⟨_, rfl⟩

def written (s : List Char) : Option Written := do
  let (y, mo, d, rest) ← dateParts (trim s)
  let (time, millis) ← timeAndMillis rest
  let (h, mi, se) ← timeParts time
  return ⟨y, mo, d, h, mi, se, millis⟩

theorem Lenient.isoToEpochMs_of_none {s : List Char} (h : written s = none) :
    Lenient.isoToEpochMs s = some none := by
  unfold Lenient.isoToEpochMs
  unfold written at h
  cases hdate : dateParts (trim s) with
  | none => rfl
  | some parts =>
      obtain ⟨y, mo, d, rest⟩ := parts
      obtain ⟨⟨time, millis⟩, htime⟩ := timeAndMillis_isSome rest
      cases htimes : timeParts time with
      | none => simp [htime, htimes]
      | some t =>
          obtain ⟨hh, mi, se⟩ := t
          simp [hdate, htime, htimes] at h

theorem Lenient.isoToEpochMs_of_some {s : List Char} {w : Written} (h : written s = some w) :
    Lenient.isoToEpochMs s =
      (civilToEpochMs w.year w.month w.day w.hour w.min w.sec w.millis).map some := by
  unfold written at h
  simp only [Option.bind_eq_bind, Option.bind_eq_some_iff] at h
  obtain ⟨⟨y, mo, d, rest⟩, hdate, ⟨time, millis⟩, htime, ⟨hh, mi, se⟩, htimes, heq⟩ := h
  cases heq
  simp only [Lenient.isoToEpochMs, hdate, htime, htimes, Option.bind_eq_bind, Option.bind_some]
  cases civilToEpochMs y mo d hh mi se millis <;> rfl

theorem Lenient.isoToEpochMs_eq {s : List Char} {w : Written} (h : written s = some w)
    {r : Option Int} :
    Lenient.isoToEpochMs s = some r ↔
      w.InReach ∧
        some ((w.days * 86400 + w.hour * 3600 + w.min * 60 + w.sec) * 1000 + w.millis) = r := by
  have hdate : (0 ≤ w.year ∧ InI64 w.year) ∧ (0 ≤ w.month ∧ InI64 w.month) ∧ 0 ≤ w.day := by
    unfold written at h
    simp only [Option.bind_eq_bind, Option.bind_eq_some_iff] at h
    obtain ⟨⟨y, mo, d, rest⟩, hdate, ⟨time, millis⟩, -, ⟨hh, mi, se⟩, -, heq⟩ := h
    cases heq
    exact dateParts_nonneg hdate
  rw [Lenient.isoToEpochMs_of_some h, Option.map_eq_some_iff]
  constructor
  · rintro ⟨ms, hms, rfl⟩
    obtain ⟨hreach, rfl⟩ := (civilToEpochMs_eq_some hdate.1 hdate.2.1 hdate.2.2).mp hms
    exact ⟨hreach, rfl⟩
  · rintro ⟨hreach, rfl⟩
    exact ⟨_, (civilToEpochMs_eq_some hdate.1 hdate.2.1 hdate.2.2).mpr ⟨hreach, rfl⟩, rfl⟩

end QuorumDispatch.Timefmt
