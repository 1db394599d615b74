import Mathlib.Tactic.Linarith
import Mathlib.Order.Basic

/-!
The proleptic Gregorian calendar, and the arithmetic that turns a day number
into a date and back. Both directions count in years that begin on the first of
March, so that the leap day is the last day of its year, and in eras of 400 such
years, which all have 146097 days.

The calendar itself is stated by its leap years, its months and its next day;
`daysFromCivil` counts one more for the next day, and `civilFromDays` is its
inverse.
-/

namespace QuorumDispatch.Lib.Calendar

/-! ### Dates -/

structure Date where
  year : Int
  month : Int
  day : Int
deriving DecidableEq, Repr

def isLeap (year : Int) : Prop := year % 4 = 0 ∧ (year % 100 ≠ 0 ∨ year % 400 = 0)

instance (year : Int) : Decidable (isLeap year) := inferInstanceAs (Decidable (_ ∧ _))

def monthLength (year month : Int) : Int :=
  if month = 2 then if isLeap year then 29 else 28
  else if month = 4 ∨ month = 6 ∨ month = 9 ∨ month = 11 then 30
  else 31

theorem monthLength_pos (year month : Int) : 1 ≤ monthLength year month := by
  unfold monthLength
  split
  · split <;> decide
  · split <;> decide

theorem monthLength_le (year month : Int) : monthLength year month ≤ 31 := by
  unfold monthLength
  split
  · split <;> decide
  · split <;> decide

namespace Date

structure Valid (t : Date) : Prop where
  month : 1 ≤ t.month ∧ t.month ≤ 12
  day : 1 ≤ t.day ∧ t.day ≤ monthLength t.year t.month

def next (t : Date) : Date :=
  if t.day < monthLength t.year t.month then { t with day := t.day + 1 }
  else if t.month < 12 then ⟨t.year, t.month + 1, 1⟩
  else ⟨t.year + 1, 1, 1⟩

def Before (s t : Date) : Prop :=
  s.year < t.year ∨ s.year = t.year ∧
    (s.month < t.month ∨ s.month = t.month ∧ s.day < t.day)

theorem before_trichotomy (s t : Date) : s.Before t ∨ s = t ∨ t.Before s := by
  obtain ⟨y, m, d⟩ := s
  obtain ⟨y', m', d'⟩ := t
  simp only [Before, mk.injEq]
  omega

end Date

/-! ### Day numbers -/

def yearStart (year : Int) : Int := 365 * year + year / 4 - year / 100 + year / 400

/-- The days of the months that stand before the month, counted from March. -/
def monthStart (month : Int) : Int := (153 * month + 2) / 5

def Date.marchYear (t : Date) : Int := if t.month ≤ 2 then t.year - 1 else t.year

def Date.marchMonth (t : Date) : Int := if 2 < t.month then t.month - 3 else t.month + 9

def daysFromCivil (t : Date) : Int :=
  yearStart t.marchYear + monthStart t.marchMonth + t.day - 1 - 719468

/-- The year, from March, in which the day with this number from the first of
March of the year 0 lies. -/
def yearOf (z : Int) : Int :=
  let era := z / 146097
  let doe := z - era * 146097
  (doe - doe / 1460 + doe / 36524 - doe / 146096) / 365 + era * 400

def civilFromDays (z : Int) : Date :=
  let z := z + 719468
  let year := yearOf z
  let doy := z - yearStart year
  let mp := (5 * doy + 2) / 153
  ⟨if mp < 10 then year else year + 1, if mp < 10 then mp + 3 else mp - 9, doy - monthStart mp + 1⟩

/-! ### Years -/

/-- A day of an era by its century, its four years, its year and the day in it;
only the years before a leap year have a day 365. -/
theorem exists_dayOfEra {doe : Int} (h : 0 ≤ doe ∧ doe < 146097) :
    ∃ c q r doy : Int, (0 ≤ c ∧ c ≤ 3) ∧ (0 ≤ q ∧ q ≤ 24) ∧ (0 ≤ r ∧ r ≤ 3) ∧
      (0 ≤ doy ∧ doy ≤ 365) ∧ (doy = 365 → r = 3 ∧ (q ≤ 23 ∨ c = 3)) ∧
      doe = 36524 * c + 1461 * q + 365 * r + doy := by
  obtain ⟨c, e, hc, he, hlast, rfl⟩ : ∃ c e : Int, (0 ≤ c ∧ c ≤ 3) ∧ 0 ≤ e ∧
      (e < 36524 ∨ c = 3 ∧ e = 36524) ∧ doe = 36524 * c + e :=
    ⟨min 3 (doe / 36524), doe - 36524 * min 3 (doe / 36524), by omega, by omega, by omega,
      by omega⟩
  obtain ⟨r, doy, hr, hdoy, he'⟩ : ∃ r doy : Int, (0 ≤ r ∧ r ≤ 3) ∧
      (0 ≤ doy ∧ (doy < 365 ∨ r = 3 ∧ doy = 365)) ∧ e % 1461 = 365 * r + doy :=
    ⟨min 3 (e % 1461 / 365), e % 1461 - 365 * min 3 (e % 1461 / 365), by omega, by omega, by omega⟩
  exact ⟨c, e / 1461, r, doy, hc, by omega, hr, by omega, by omega, by omega⟩

theorem yearOfEra_eq {c q r doy doe : Int} (hc : 0 ≤ c ∧ c ≤ 3) (hq : 0 ≤ q ∧ q ≤ 24)
    (hr : 0 ≤ r ∧ r ≤ 3) (hdoy : 0 ≤ doy ∧ doy ≤ 365)
    (hleap : doy = 365 → r = 3 ∧ (q ≤ 23 ∨ c = 3))
    (h : doe = 36524 * c + 1461 * q + 365 * r + doy) :
    (doe - doe / 1460 + doe / 36524 - doe / 146096) / 365 = 100 * c + 4 * q + r := by
  -- the first quotient counts the leap days, and one too many late in a leap cycle
  have hlow : 25 * c + q ≤ doe / 1460 := by omega
  have hhigh : doe / 1460 ≤ 25 * c + q + 1 := by omega
  have hextra : doe / 1460 = 25 * c + q + 1 → 1 ≤ doy := by omega
  have hlast : doy = 365 → doe / 1460 = 25 * c + q + 1 := by omega
  -- the other two count the centuries
  have hcentury : doe < 36524 * (c + 1) ∨ c = 3 ∧ doe = 146096 := by omega
  have hsum : doe / 36524 - doe / 146096 = c := by
    rcases hcentury with hlt | ⟨rfl, rfl⟩
    · have h1 : doe / 36524 = c := by omega
      have h2 : doe / 146096 = 0 := by omega
      omega
    · decide
  omega

theorem yearStart_yearOf (z : Int) :
    yearStart (yearOf z) ≤ z ∧ z < yearStart (yearOf z + 1) := by
  have hdoe : 0 ≤ z - z / 146097 * 146097 ∧ z - z / 146097 * 146097 < 146097 := by omega
  obtain ⟨c, q, r, doy, hc, hq, hr, hdoy, hleap, hsum⟩ := exists_dayOfEra hdoe
  have hyear : yearOf z = 100 * c + 4 * q + r + z / 146097 * 400 := by
    rw [← yearOfEra_eq hc hq hr hdoy hleap hsum]
    rfl
  rw [hyear]
  generalize z / 146097 = era at hsum
  have h4 : (100 * c + 4 * q + r + era * 400) / 4 = 25 * c + q + 100 * era := by omega
  have h100 : (100 * c + 4 * q + r + era * 400) / 100 = c + 4 * era := by omega
  have h400 : (100 * c + 4 * q + r + era * 400) / 400 = era := by omega
  have h4' : (100 * c + 4 * q + r + era * 400 + 1) / 4 =
      25 * c + q + 100 * era + (r + 1) / 4 := by omega
  have h100' : (100 * c + 4 * q + r + era * 400 + 1) / 100 =
      c + 4 * era + (4 * q + r + 1) / 100 := by omega
  have h400' : (100 * c + 4 * q + r + era * 400 + 1) / 400 =
      era + (100 * c + 4 * q + r + 1) / 400 := by omega
  simp only [yearStart, h4, h100, h400, h4', h100', h400']
  constructor
  · omega
  · have hleap' : doy = 365 → (r + 1) / 4 - (4 * q + r + 1) / 100 +
        (100 * c + 4 * q + r + 1) / 400 = 1 := by omega
    have hplain : 0 ≤ (r + 1) / 4 - (4 * q + r + 1) / 100 +
        (100 * c + 4 * q + r + 1) / 400 := by omega
    omega

theorem yearStart_mono {a b : Int} (h : a ≤ b) : yearStart a ≤ yearStart b := by
  unfold yearStart
  omega

/-- A year from March has its leap day at the end, in the next calendar year. -/
theorem yearStart_succ (year : Int) :
    yearStart (year + 1) = yearStart year + 365 + if isLeap (year + 1) then 1 else 0 := by
  by_cases h : isLeap (year + 1)
  · rw [if_pos h]
    unfold isLeap at h
    unfold yearStart
    omega
  · rw [if_neg h]
    unfold isLeap at h
    unfold yearStart
    omega

/-! ### Months -/

namespace Date

variable {s t : Date}

theorem Valid.marchMonth (h : t.Valid) : 0 ≤ t.marchMonth ∧ t.marchMonth ≤ 11 := by
  have := h.month
  unfold Date.marchMonth
  split <;> omega

def dayOfYear (t : Date) : Int := monthStart t.marchMonth + t.day - 1

theorem daysFromCivil_eq (t : Date) :
    daysFromCivil t = yearStart t.marchYear + t.dayOfYear - 719468 := by
  unfold daysFromCivil dayOfYear
  omega

theorem monthStart_add_monthLength (h : t.Valid) :
    if t.marchMonth < 11 then
      monthStart t.marchMonth + monthLength t.year t.month = monthStart (t.marchMonth + 1)
    else yearStart t.marchYear + monthStart t.marchMonth + monthLength t.year t.month =
      yearStart (t.marchYear + 1) := by
  obtain ⟨hlow, hhigh⟩ := h.month
  obtain ⟨y, m, d⟩ := t
  have hm : m = 1 ∨ m = 2 ∨ m = 3 ∨ m = 4 ∨ m = 5 ∨ m = 6 ∨ m = 7 ∨ m = 8 ∨ m = 9 ∨ m = 10 ∨
      m = 11 ∨ m = 12 := by
    change 1 ≤ m at hlow
    change m ≤ 12 at hhigh
    omega
  rcases hm with rfl | rfl | rfl | rfl | rfl | rfl | rfl | rfl | rfl | rfl | rfl | rfl
  case inr.inl =>
    -- February
    have hyear : y - 1 + 1 = y := by omega
    have hsucc := yearStart_succ (y - 1)
    rw [hyear] at hsucc
    simp [Date.marchMonth, Date.marchYear, monthLength, monthStart, hyear, hsucc]
    split <;> omega
  all_goals simp [Date.marchMonth, monthLength, monthStart]

theorem Valid.dayOfYear (h : t.Valid) :
    0 ≤ t.dayOfYear ∧ yearStart t.marchYear + t.dayOfYear < yearStart (t.marchYear + 1) := by
  obtain ⟨hday, hlast⟩ := h.day
  have hmonth := h.marchMonth
  have hend := monthStart_add_monthLength h
  have hsucc := yearStart_succ t.marchYear
  unfold Date.dayOfYear
  constructor
  · unfold monthStart
    omega
  · split at hend
    · have : monthStart (t.marchMonth + 1) ≤ 337 := by
        unfold monthStart
        omega
      split at hsucc <;> omega
    · omega

theorem before_iff (hs : s.Valid) (ht : t.Valid) :
    s.Before t ↔ s.marchYear < t.marchYear ∨ s.marchYear = t.marchYear ∧
      (s.marchMonth < t.marchMonth ∨ s.marchMonth = t.marchMonth ∧ s.day < t.day) := by
  have hms := hs.month
  have hmt := ht.month
  simp only [Before, marchYear, marchMonth]
  split <;> split <;> split <;> split <;> omega

end Date

theorem daysFromCivil_lt {s t : Date} (hs : s.Valid) (ht : t.Valid) (h : s.Before t) :
    daysFromCivil s < daysFromCivil t := by
  rw [Date.daysFromCivil_eq, Date.daysFromCivil_eq]
  have hlast := hs.dayOfYear.2
  have hfirst := ht.dayOfYear.1
  rcases (Date.before_iff hs ht).mp h with hyear | ⟨hyear, hmonth | ⟨hmonth, hday⟩⟩
  · have := yearStart_mono (Int.add_one_le_iff.mpr hyear)
    omega
  · -- an earlier month ends before the later one begins
    have hend := Date.monthStart_add_monthLength hs
    have hms := hs.marchMonth
    have hmt := ht.marchMonth
    rw [if_pos (by omega)] at hend
    have hstart : monthStart (s.marchMonth + 1) ≤ monthStart t.marchMonth := by
      unfold monthStart
      omega
    have := hs.day
    have := ht.day
    simp only [Date.dayOfYear, hyear]
    omega
  · simp only [Date.dayOfYear, hyear, hmonth]
    omega

theorem daysFromCivil_lt_iff {s t : Date} (hs : s.Valid) (ht : t.Valid) :
    daysFromCivil s < daysFromCivil t ↔ s.Before t := by
  constructor
  · intro h
    rcases s.before_trichotomy t with hlt | rfl | hgt
    · exact hlt
    · omega
    · have := daysFromCivil_lt ht hs hgt
      omega
  · exact daysFromCivil_lt hs ht

theorem daysFromCivil_injective {s t : Date} (hs : s.Valid) (ht : t.Valid)
    (h : daysFromCivil s = daysFromCivil t) : s = t := by
  rcases s.before_trichotomy t with hlt | heq | hgt
  · have := daysFromCivil_lt hs ht hlt
    omega
  · exact heq
  · have := daysFromCivil_lt ht hs hgt
    omega

/-! ### Days -/

theorem civilFromDays_spec (z : Int) :
    (civilFromDays z).Valid ∧ daysFromCivil (civilFromDays z) = z := by
  obtain ⟨hlow, hhigh⟩ := yearStart_yearOf (z + 719468)
  have hsucc := yearStart_succ (yearOf (z + 719468))
  obtain ⟨doy, hdoy⟩ : ∃ doy, doy = z + 719468 - yearStart (yearOf (z + 719468)) := ⟨_, rfl⟩
  have hdef : civilFromDays z =
      ⟨if (5 * doy + 2) / 153 < 10 then yearOf (z + 719468) else yearOf (z + 719468) + 1,
        if (5 * doy + 2) / 153 < 10 then (5 * doy + 2) / 153 + 3 else (5 * doy + 2) / 153 - 9,
        doy - monthStart ((5 * doy + 2) / 153) + 1⟩ := by
    rw [hdoy]
    rfl
  generalize yearOf (z + 719468) = year at *
  have hrange : 0 ≤ doy ∧ doy ≤ 365 ∧ (doy = 365 → isLeap (year + 1)) := by
    split at hsucc
    · exact ⟨by omega, by omega, fun _ => by assumption⟩
    · exact ⟨by omega, by omega, fun _ => by omega⟩
  rw [hdef]
  have hmp : 0 ≤ (5 * doy + 2) / 153 ∧ (5 * doy + 2) / 153 ≤ 11 := by omega
  constructor
  · constructor
    · dsimp only
      split <;> omega
    · have hcases : ∀ mp : Int, (5 * doy + 2) / 153 = mp → mp = 0 ∨ mp = 1 ∨ mp = 2 ∨ mp = 3 ∨
          mp = 4 ∨ mp = 5 ∨ mp = 6 ∨ mp = 7 ∨ mp = 8 ∨ mp = 9 ∨ mp = 10 ∨ mp = 11 := by
        intro mp h
        omega
      obtain ⟨mp, hmp'⟩ : ∃ mp, (5 * doy + 2) / 153 = mp := ⟨_, rfl⟩
      rw [hmp']
      rcases hcases mp hmp' with rfl | rfl | rfl | rfl | rfl | rfl | rfl | rfl | rfl | rfl | rfl |
        rfl
      case inr.inr.inr.inr.inr.inr.inr.inr.inr.inr.inr =>
        -- February has the leap day
        simp only [monthLength, monthStart]
        by_cases hleap : isLeap (year + 1)
        · simp [hleap]
          omega
        · have : doy ≠ 365 := fun h => hleap (hrange.2.2 h)
          simp [hleap]
          omega
      all_goals
        simp [monthLength, monthStart]
        omega
  · simp only [daysFromCivil, Date.marchYear, Date.marchMonth]
    have hmonth : ∀ mp : Int, 0 ≤ mp → mp ≤ 11 →
        (if 2 < if mp < 10 then mp + 3 else mp - 9 then
          (if mp < 10 then mp + 3 else mp - 9) - 3
          else (if mp < 10 then mp + 3 else mp - 9) + 9) = mp := by
      intro mp h0 h11
      split <;> split <;> omega
    have hyear : ∀ mp : Int, 0 ≤ mp → mp ≤ 11 →
        (if (if mp < 10 then mp + 3 else mp - 9) ≤ 2 then
          (if mp < 10 then year else year + 1) - 1
          else if mp < 10 then year else year + 1) = year := by
      intro mp h0 h11
      split <;> split <;> omega
    rw [hmonth _ hmp.1 hmp.2, hyear _ hmp.1 hmp.2]
    omega

theorem civilFromDays_valid (z : Int) : (civilFromDays z).Valid := (civilFromDays_spec z).1

@[simp] theorem daysFromCivil_civilFromDays (z : Int) : daysFromCivil (civilFromDays z) = z :=
  (civilFromDays_spec z).2

theorem civilFromDays_daysFromCivil {t : Date} (h : t.Valid) :
    civilFromDays (daysFromCivil t) = t :=
  daysFromCivil_injective (civilFromDays_valid _) h (daysFromCivil_civilFromDays _)

theorem Date.Valid.next {t : Date} (h : t.Valid) : t.next.Valid := by
  have hmonth := h.month
  have hday := h.day
  unfold Date.next
  split
  · exact ⟨hmonth, by dsimp only; omega⟩
  · split
    · exact ⟨by dsimp only; omega, by simpa using monthLength_pos _ _⟩
    · exact ⟨by dsimp only; omega, by simpa using monthLength_pos _ _⟩

theorem daysFromCivil_next {t : Date} (h : t.Valid) :
    daysFromCivil t.next = daysFromCivil t + 1 := by
  have hmonth := h.month
  have hday := h.day
  have hend := Date.monthStart_add_monthLength h
  have hzero : monthStart 0 = 0 := by decide
  by_cases hinner : t.day < monthLength t.year t.month
  · rw [Date.next, if_pos hinner]
    simp only [daysFromCivil, Date.marchYear, Date.marchMonth]
    omega
  -- the last day of its month
  have hlast : t.day = monthLength t.year t.month := by omega
  rw [Date.next, if_neg hinner]
  by_cases hfeb : t.month = 2
  · have hm : t.marchMonth = 11 := by simp [Date.marchMonth, hfeb]
    have hy : t.marchYear + 1 = t.year := by
      simp [Date.marchYear, hfeb]
    rw [if_neg (by omega), hy, ← hlast] at hend
    rw [if_pos (by omega)]
    simp only [daysFromCivil, Date.marchYear, Date.marchMonth, hfeb] at hend ⊢
    simp [hzero] at hend ⊢
    omega
  · have hm : t.marchMonth < 11 := by
      unfold Date.marchMonth
      split <;> omega
    rw [if_pos hm, ← hlast] at hend
    split
    · have hnext : Date.marchMonth ⟨t.year, t.month + 1, 1⟩ = t.marchMonth + 1 := by
        simp only [Date.marchMonth]
        split <;> split <;> omega
      have hyear : Date.marchYear ⟨t.year, t.month + 1, 1⟩ = t.marchYear := by
        simp only [Date.marchYear]
        split <;> split <;> omega
      rw [daysFromCivil, daysFromCivil, hnext, hyear]
      dsimp only
      omega
    · have hdec : t.month = 12 := by omega
      have hnext : Date.marchMonth ⟨t.year + 1, 1, 1⟩ = t.marchMonth + 1 := by
        simp [Date.marchMonth, hdec]
      have hyear : Date.marchYear ⟨t.year + 1, 1, 1⟩ = t.marchYear := by
        simp [Date.marchYear, hdec]
      rw [daysFromCivil, daysFromCivil, hnext, hyear]
      dsimp only
      omega

end QuorumDispatch.Lib.Calendar
