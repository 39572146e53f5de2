import Annals.Time.Calendar

/-!
# Days and dates

Every day has a date that the calendar knows, and the date leads back to the day. The heart of it is that
the year found for a day of a cycle of four centuries begins no later than the day and ends after it.
-/

namespace Annals.Date

section Cycle

variable {day year : Int}

/-- The last day of a cycle aside, a cycle splits into centuries of one length. -/
theorem century_eq (hfirst : 0 ≤ day) (hlast : day < 146096)
    (hyear : year = (day - day / 1460 + day / 36524 - day / 146096) / 365) :
    year / 100 = day / 36524 := by
  have hcycle : day / 146096 = 0 := by omega
  obtain h | h | h | h :
      day / 36524 = 0 ∨ day / 36524 = 1 ∨ day / 36524 = 2 ∨ day / 36524 = 3 := by omega
  all_goals omega

theorem daysBeforeYear_le (hfirst : 0 ≤ day) (hlast : day < 146097)
    (hyear : year = (day - day / 1460 + day / 36524 - day / 146096) / 365) :
    daysBeforeYear year ≤ day := by
  rw [daysBeforeYear]
  by_cases hend : day = 146096
  · subst hend
    omega
  have hcentury := century_eq hfirst (by omega) hyear
  have hcycle : day / 146096 = 0 := by omega
  -- A year has seen no more leap days than the day has seen spans of four years.
  have hleaps : year / 4 ≤ day / 1460 := by
    rw [← Int.not_lt]
    intro hlt
    obtain h | h | h | h :
        day / 36524 = 0 ∨ day / 36524 = 1 ∨ day / 36524 = 2 ∨ day / 36524 = 3 := by omega
    all_goals omega
  omega

theorem lt_daysBeforeYear_succ (hfirst : 0 ≤ day) (hlast : day < 146097)
    (hyear : year = (day - day / 1460 + day / 36524 - day / 146096) / 365) :
    day < daysBeforeYear (year + 1) := by
  rw [daysBeforeYear]
  by_cases hend : day = 146096
  · subst hend
    omega
  have hcentury := century_eq hfirst (by omega) hyear
  have hcycle : day / 146096 = 0 := by omega
  have hleaps : day / 1460 ≤ (year + 1) / 4 := by
    rw [← Int.not_lt]
    intro hlt
    obtain h | h | h | h :
        day / 36524 = 0 ∨ day / 36524 = 1 ∨ day / 36524 = 2 ∨ day / 36524 = 3 := by omega
    all_goals omega
  -- Only the last year of a century is followed by the next one.
  by_cases hturn : year % 100 = 99
  · obtain h | h | h | h : year = 99 ∨ year = 199 ∨ year = 299 ∨ year = 399 := by omega
    all_goals subst h
    all_goals omega
  · have hsame : (year + 1) / 100 = year / 100 := by omega
    omega

end Cycle

/-- Four centuries later the same year begins as many days later as a cycle has. -/
theorem daysBeforeYear_cycle (cycle year : Int) :
    daysBeforeYear (cycle * 400 + year) = cycle * 146097 + daysBeforeYear year := by
  rw [daysBeforeYear, daysBeforeYear]
  omega

theorem daysBeforeYear_succ (year : Int) :
    daysBeforeYear (year + 1) =
      daysBeforeYear year + (if isLeapYear (year + 1) then 366 else 365) := by
  rw [daysBeforeYear, daysBeforeYear, isLeapYear]
  by_cases hfour : (year + 1) % 4 = 0 <;> by_cases hcentury : (year + 1) % 100 = 0 <;>
    by_cases hcycle : (year + 1) % 400 = 0 <;> simp [hfour, hcentury, hcycle] <;> omega

theorem isLeapYear_cycle (cycle year : Int) :
    isLeapYear (cycle * 400 + year) = isLeapYear year := by
  have hfour : (cycle * 400 + year) % 4 = year % 4 := by omega
  have hcentury : (cycle * 400 + year) % 100 = year % 100 := by omega
  have hcycle : (cycle * 400 + year) % 400 = year % 400 := by omega
  rw [isLeapYear, isLeapYear, hfour, hcentury, hcycle]

def monthAfterMarch (months : Int) : Int :=
  if months < 10 then months + 3 else months - 9

/-- The date of a day of a year that is counted from March. -/
def ofDayOfYear (year dayOfYear : Int) : Date :=
  let months := (5 * dayOfYear + 2) / 153
  let month := monthAfterMarch months
  ⟨year + if month ≤ 2 then 1 else 0, month.toNat, (dayOfYear - daysBeforeMonth months + 1).toNat⟩

theorem dayNumber_ofDayOfYear (year dayOfYear : Int) (hfirst : 0 ≤ dayOfYear)
    (hlast : dayOfYear < 366) :
    (ofDayOfYear year dayOfYear).dayNumber = daysBeforeYear year + dayOfYear - epochDay := by
  obtain ⟨months, hmonths⟩ : ∃ months, months = (5 * dayOfYear + 2) / 153 := ⟨_, rfl⟩
  have hday : 0 ≤ dayOfYear - daysBeforeMonth months := by
    rw [daysBeforeMonth]
    omega
  by_cases hspring : months < 10
  · have hmonth : ¬(months + 3).toNat ≤ 2 := by omega
    have hyear : ¬months + 3 ≤ 2 := by omega
    simp only [ofDayOfYear, dayNumber, monthAfterMarch, ← hmonths, if_pos hspring, if_neg hmonth,
      if_neg hyear]
    rw [show ((months + 3).toNat : Int) - 3 = months by omega, Int.add_zero]
    omega
  · have hmonth : (months - 9).toNat ≤ 2 := by omega
    have hyear : months - 9 ≤ 2 := by omega
    simp only [ofDayOfYear, dayNumber, monthAfterMarch, ← hmonths, if_neg hspring, if_pos hmonth,
      if_pos hyear]
    rw [show ((months - 9).toNat : Int) + 9 = months by omega,
      show year + 1 - 1 = year by omega]
    omega

/-- February aside, a month is as long as the rule for the days before a month says. -/
theorem daysInMonth_monthAfterMarch (year : Int) {months : Int} (hfirst : 0 ≤ months)
    (hlast : months < 11) :
    (daysInMonth year (monthAfterMarch months).toNat : Int) =
      daysBeforeMonth (months + 1) - daysBeforeMonth months := by
  obtain h | h | h | h | h | h | h | h | h | h | h : months = 0 ∨ months = 1 ∨ months = 2 ∨
      months = 3 ∨ months = 4 ∨ months = 5 ∨ months = 6 ∨ months = 7 ∨ months = 8 ∨ months = 9 ∨
      months = 10 := by omega
  all_goals subst h; rfl

/-- The calendar knows the date of every day of a year. The leap day is the last. -/
theorem exists?_ofDayOfYear (year dayOfYear : Int) (hfirst : 0 ≤ dayOfYear)
    (hlast : dayOfYear < if isLeapYear (year + 1) then 366 else 365) :
    (ofDayOfYear year dayOfYear).exists? := by
  obtain ⟨months, hmonths⟩ : ∃ months, months = (5 * dayOfYear + 2) / 153 := ⟨_, rfl⟩
  have hrange : dayOfYear < 366 := by
    split at hlast <;> omega
  have hbefore : 0 ≤ dayOfYear - daysBeforeMonth months := by
    rw [daysBeforeMonth]
    omega
  have hmonth : 1 ≤ (monthAfterMarch months).toNat ∧ (monthAfterMarch months).toNat ≤ 12 := by
    rw [monthAfterMarch]
    omega
  have hday : ((dayOfYear - daysBeforeMonth months + 1).toNat : Int) ≤
      daysInMonth (year + if monthAfterMarch months ≤ 2 then 1 else 0)
        (monthAfterMarch months).toNat := by
    by_cases hwinter : months = 11
    · subst hwinter
      change ((dayOfYear - 337 + 1).toNat : Int) ≤
        ((if isLeapYear (year + 1) then 29 else 28 : Nat) : Int)
      by_cases hleap : isLeapYear (year + 1)
      · rw [if_pos hleap] at hlast ⊢
        omega
      · rw [if_neg hleap] at hlast ⊢
        omega
    · rw [daysInMonth_monthAfterMarch _ (by omega) (by omega), daysBeforeMonth, daysBeforeMonth]
      omega
  simp only [ofDayOfYear, ← hmonths, exists?, Bool.and_eq_true, decide_eq_true_eq]
  exact ⟨⟨hmonth, by omega⟩, by omega⟩

/-- A date is found by the cycle of a day, the year of the cycle, and the day of the year. -/
theorem ofDayNumber_eq (number : Int) : ∃ year dayOfYear, 0 ≤ dayOfYear ∧
    (dayOfYear < if isLeapYear (year + 1) then 366 else 365) ∧
    number = daysBeforeYear year + dayOfYear - epochDay ∧
    ofDayNumber number = ofDayOfYear year dayOfYear := by
  obtain ⟨cycle, hcycle⟩ : ∃ cycle, cycle = (number + epochDay) / 146097 := ⟨_, rfl⟩
  obtain ⟨day, hday⟩ : ∃ day, day = (number + epochDay) % 146097 := ⟨_, rfl⟩
  obtain ⟨year, hyear⟩ : ∃ year, year =
      (day - day / 1460 + day / 36524 - day / 146096) / 365 := ⟨_, rfl⟩
  have hfirst := daysBeforeYear_le (by omega) (by omega) hyear
  have hlast := lt_daysBeforeYear_succ (by omega) (by omega) hyear
  rw [daysBeforeYear_succ] at hlast
  refine ⟨cycle * 400 + year, day - daysBeforeYear year, by omega, ?_, ?_, ?_⟩
  · rw [Int.add_assoc, isLeapYear_cycle]
    by_cases hleap : isLeapYear (year + 1)
    · rw [if_pos hleap] at hlast ⊢
      omega
    · rw [if_neg hleap] at hlast ⊢
      omega
  · rw [daysBeforeYear_cycle]
    omega
  · rw [ofDayNumber, ofDayOfYear, hyear, hday, hcycle]
    rfl

@[simp]
theorem dayNumber_ofDayNumber (number : Int) : (ofDayNumber number).dayNumber = number := by
  obtain ⟨year, dayOfYear, hfirst, hlast, hnumber, hdate⟩ := ofDayNumber_eq number
  have hrange : dayOfYear < 366 := by
    split at hlast <;> omega
  rw [hdate, dayNumber_ofDayOfYear year dayOfYear hfirst hrange, hnumber]

theorem exists?_ofDayNumber (number : Int) : (ofDayNumber number).exists? := by
  obtain ⟨year, dayOfYear, hfirst, hlast, -, hdate⟩ := ofDayNumber_eq number
  rw [hdate]
  exact exists?_ofDayOfYear year dayOfYear hfirst hlast

end Annals.Date
