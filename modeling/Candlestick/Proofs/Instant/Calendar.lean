import Candlestick.Instant.Calendar
import Mathlib.Tactic.IntervalCases

namespace Candlestick.Date

-- The year of an era in which a day of the era lies, and the day on which a year begins.
def yearOfEra (day : Int) : Int := (day - day / 1460 + day / 36524 - day / 146096) / 365

def yearStart (year : Int) : Int := 365 * year + year / 4 - year / 100

section

variable {day : Int} (hlo : 0 ≤ day) (hhi : day < 146097)
include hlo hhi

theorem yearOfEra_bounds : 0 ≤ yearOfEra day ∧ yearOfEra day < 400 := by
  unfold yearOfEra
  omega

-- The centuries of an era have 36524 days, and the last has one more. With the century known, what
-- is left to say of a year is linear.
theorem exists_century : ∃ century, (century = 0 ∨ century = 1 ∨ century = 2 ∨ century = 3) ∧
    36524 * century ≤ day ∧ (day < 36524 * (century + 1) ∨ century = 3) ∧
    yearOfEra day = (day - day / 1460 + century) / 365 ∧ yearOfEra day / 100 = century := by
  obtain ⟨c, hc⟩ : ∃ c, day / 36524 - day / 146096 = c := ⟨_, rfl⟩
  have hyear : yearOfEra day = (day - day / 1460 + c) / 365 := by
    unfold yearOfEra
    omega
  have hcases : c = 0 ∨ c = 1 ∨ c = 2 ∨ c = 3 := by omega
  refine ⟨c, hcases, by omega, by omega, hyear, ?_⟩
  rw [hyear]
  rcases hcases with rfl | rfl | rfl | rfl <;> omega

theorem yearStart_yearOfEra_le : yearStart (yearOfEra day) ≤ day := by
  obtain ⟨c, hcases, hlo, hhi, hyear, hdiv⟩ := exists_century hlo hhi
  rw [yearStart, hdiv]
  rcases hcases with rfl | rfl | rfl | rfl <;> omega

theorem lt_yearStart_succ : day < yearStart (yearOfEra day + 1) ∨ yearOfEra day = 399 := by
  obtain ⟨c, hcases, hlo, hhi, hyear, hdiv⟩ := exists_century hlo hhi
  have hsucc : (yearOfEra day + 1) / 100 = c ∨ yearOfEra day = 100 * c + 99 := by omega
  rw [yearStart]
  rcases hsucc with hsame | hnext
  · rw [hsame]
    rcases hcases with rfl | rfl | rfl | rfl <;> omega
  · rw [hnext]
    rcases hcases with rfl | rfl | rfl | rfl <;> omega

end

-- An era, a year of it, a month of the year counted from March, and a day of the month.
structure Parts where
  era : Int
  year : Int
  march : Int
  day : Int

namespace Parts

structure Fits (p : Parts) : Prop where
  year_nonneg : 0 ≤ p.year
  year_lt : p.year < 400
  march_nonneg : 0 ≤ p.march
  march_lt : p.march < 12
  day_pos : 1 ≤ p.day
  -- five months of thirty and thirty-one days in turn have 153 of them
  day_le : p.march < 11 → p.day ≤ (153 * (p.march + 1) + 2) / 5 - (153 * p.march + 2) / 5
  -- the last month has what is left of the year
  february : p.march = 11 → p.year = 399 ∧ p.day ≤ 29 ∨
    yearStart p.year + 337 + p.day ≤ yearStart (p.year + 1)

def date (p : Parts) : Date :=
  if p.march < 10 then ⟨p.year + 400 * p.era, (p.march + 3).toNat, p.day.toNat⟩
  else ⟨p.year + 400 * p.era + 1, (p.march - 9).toNat, p.day.toNat⟩

-- The day within its era.
def dayOfEra (p : Parts) : Int := yearStart p.year + (153 * p.march + 2) / 5 + p.day - 1

-- The parts of a date, from the day of its era.
def ofDayOfEra (era day : Int) : Parts :=
  let rest := day - yearStart (yearOfEra day)
  let march := (5 * rest + 2) / 153
  ⟨era, yearOfEra day, march, rest - (153 * march + 2) / 5 + 1⟩

theorem dayOfEra_ofDayOfEra (era day : Int) : (ofDayOfEra era day).dayOfEra = day := by
  simp only [ofDayOfEra, dayOfEra]
  omega

theorem fits_ofDayOfEra (era : Int) {day : Int} (hlo : 0 ≤ day) (hhi : day < 146097) :
    (ofDayOfEra era day).Fits := by
  have hyear := yearOfEra_bounds hlo hhi
  have hstart := yearStart_yearOfEra_le hlo hhi
  have hend := lt_yearStart_succ hlo hhi
  obtain ⟨rest, hrest⟩ : ∃ rest, day - yearStart (yearOfEra day) = rest := ⟨_, rfl⟩
  have hbound : 0 ≤ rest ∧ rest ≤ 365 := by
    unfold yearStart at *
    omega
  constructor <;> simp only [ofDayOfEra, hrest]
  case february =>
      unfold yearStart at *
      omega
  all_goals omega

theorem date_ofDayOfEra (days : Int) :
    (ofDayOfEra ((days + 719468) / 146097) ((days + 719468) % 146097)).date = ofDays days := by
  obtain ⟨era, hera⟩ : ∃ era, (days + 719468) / 146097 = era := ⟨_, rfl⟩
  obtain ⟨p, hp⟩ : ∃ p, ofDayOfEra era ((days + 719468) % 146097) = p := ⟨_, rfl⟩
  have hofDays : ofDays days =
      let month := if p.march < 10 then p.march + 3 else p.march - 9
      ⟨if month ≤ 2 then p.year + 400 * era + 1 else p.year + 400 * era, month.toNat,
        p.day.toNat⟩ := by
    subst hp hera
    rfl
  have hsame : p.era = era := hp ▸ rfl
  have hmarch : 0 ≤ p.march := hp ▸ (fits_ofDayOfEra era (by omega) (by omega)).march_nonneg
  rw [hera, hp, hofDays, date, hsame]
  by_cases h : p.march < 10
  · simp only [if_pos h]
    rw [if_neg (by omega)]
  · have hle : p.march - 9 ≤ 2 := by
      have hlt : p.march < 12 := hp ▸ (fits_ofDayOfEra era (by omega) (by omega)).march_lt
      omega
    simp only [if_neg h, if_pos hle]

end Parts

theorem exists_parts (days : Int) : ∃ p : Parts, p.Fits ∧ p.date = ofDays days ∧
    146097 * p.era + p.dayOfEra = days + 719468 := by
  refine ⟨_, Parts.fits_ofDayOfEra _ (by omega) (by omega), Parts.date_ofDayOfEra days, ?_⟩
  rw [Parts.dayOfEra_ofDayOfEra]
  exact Int.mul_ediv_add_emod _ _

theorem toDays_ofDays (days : Int) : (ofDays days).toDays = days := by
  obtain ⟨p, hp, hdate, hdays⟩ := exists_parts days
  obtain ⟨hyear, hlt, hmarch, hlast, hday, -, -⟩ := hp
  unfold Parts.dayOfEra yearStart at hdays
  rw [← hdate, Parts.date]
  split
  · simp only [toDays]
    rw [if_neg (by omega), if_pos (by omega)]
    omega
  · simp only [toDays]
    rw [if_pos (by omega), if_neg (by omega)]
    omega

theorem isLeapYear_iff (year : Int) :
    isLeapYear year = true ↔ year % 4 = 0 ∧ (year % 100 ≠ 0 ∨ year % 400 = 0) := by
  simp [isLeapYear]

theorem daysInMonth_le (year : Int) (month : Nat) : daysInMonth year month ≤ 31 := by
  unfold daysInMonth
  split_ifs <;> decide

theorem daysInMonth_of_march {march : Int} (hlo : 0 ≤ march) (hhi : march < 11) (year : Int) :
    (daysInMonth year (if march < 10 then march + 3 else march - 9).toNat : Int) =
      (153 * (march + 1) + 2) / 5 - (153 * march + 2) / 5 := by
  interval_cases march <;> rfl

namespace Parts.Fits

variable {p : Parts}

-- A February of twenty-nine days is that of a leap year.
theorem day_le_february (hp : p.Fits) (hmarch : p.march = 11) :
    p.day.toNat ≤ daysInMonth (p.year + 400 * p.era + 1) 2 := by
  have hfebruary := hp.february hmarch
  have hyear := hp.year_lt
  have hleap := isLeapYear_iff (p.year + 400 * p.era + 1)
  unfold yearStart at hfebruary
  rw [daysInMonth, if_pos rfl]
  by_cases hlong : 29 ≤ p.day
  · rw [if_pos (hleap.mpr (by omega))]
    omega
  · split <;> omega

theorem valid_date (hp : p.Fits) : p.date.Valid := by
  have hday := hp.day_pos
  have hlo := hp.march_nonneg
  have hmarch : p.march = 11 ∨ p.march < 11 := by
    have := hp.march_lt
    omega
  rcases hmarch with hmarch | hmarch
  · have hlength := hp.day_le_february hmarch
    rw [date, if_neg (by omega), hmarch]
    exact ⟨by simp, by simp, by simp only; omega, hlength⟩
  · have hlength (year : Int) := daysInMonth_of_march hlo hmarch year
    have hle := hp.day_le hmarch
    rw [date]
    split
    · have hyear := hlength (p.year + 400 * p.era)
      rw [if_pos ‹_›] at hyear
      refine ⟨?_, ?_, ?_, ?_⟩ <;> simp only <;> omega
    · have hyear := hlength (p.year + 400 * p.era + 1)
      rw [if_neg ‹_›] at hyear
      refine ⟨?_, ?_, ?_, ?_⟩ <;> simp only <;> omega

end Parts.Fits

theorem valid_ofDays (days : Int) : (ofDays days).Valid := by
  obtain ⟨p, hp, hdate, -⟩ := exists_parts days
  exact hdate ▸ hp.valid_date

end Candlestick.Date
