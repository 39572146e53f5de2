import Annals.Proofs.Time.Timestamp

/-!
# Timestamps of fixed width

The strict reader takes back what was written for an instant of the years 0 to 9999, leap seconds
included: the instant that the timestamp names. The years before and after carry a sign, and the strict
reader refuses a sign before it has read anything else, so such a timestamp is never taken for any instant.
-/

namespace Annals

def Instant.date (instant : Instant) : Date :=
  Date.ofDayNumber (instant.seconds / 86400)

/-- Whether four digits can name the year of an instant. -/
def Instant.Nameable (instant : Instant) : Prop :=
  0 ≤ instant.date.year ∧ instant.date.year ≤ 9999

instance (instant : Instant) : Decidable instant.Nameable :=
  inferInstanceAs (Decidable (_ ∧ _))

theorem Instant.nameable_spelled (instant : Instant) : instant.spelled.Nameable ↔ instant.Nameable := by
  rw [Nameable, Nameable, date, date, day_spelled]

/-! ### The bounds of a year -/

namespace Date

theorem year_ofDayOfYear {year dayOfYear : Int} (hfirst : 0 ≤ dayOfYear) (hlast : dayOfYear < 366) :
    (ofDayOfYear year dayOfYear).year = year + if 306 ≤ dayOfYear then 1 else 0 := by
  -- January is the tenth month after March, and 306 days come before it.
  have hmonth : monthAfterMarch ((5 * dayOfYear + 2) / 153) ≤ 2 ↔ 306 ≤ dayOfYear := by
    rw [monthAfterMarch]
    split <;> omega
  simp only [ofDayOfYear, hmonth]

theorem dayNumber_newYear (year : Int) :
    (Date.mk year 1 1).dayNumber = daysBeforeYear (year - 1) + 306 - epochDay := by
  simp [dayNumber, daysBeforeMonth]

/-- Leap days only ever add to the days of the years between. -/
theorem daysBeforeYear_add_le {year later : Int} (h : year ≤ later) :
    daysBeforeYear year + 365 * (later - year) ≤ daysBeforeYear later := by
  rw [daysBeforeYear, daysBeforeYear]
  omega

/-- A day lies in a year or behind it if it does not come before the first of its January. -/
theorem le_year_ofDayNumber_iff (number year : Int) :
    year ≤ (ofDayNumber number).year ↔ (Date.mk year 1 1).dayNumber ≤ number := by
  obtain ⟨marchYear, dayOfYear, hfirst, hlast, hnumber, hdate⟩ := ofDayNumber_eq number
  have hrange : dayOfYear < 366 := by split at hlast <;> omega
  rw [hdate, year_ofDayOfYear hfirst hrange, dayNumber_newYear, hnumber]
  obtain hlater | rfl | hearlier :
      year ≤ marchYear ∨ year = marchYear + 1 ∨ marchYear + 2 ≤ year := by omega
  · have hdays := daysBeforeYear_add_le (show year - 1 ≤ marchYear by omega)
    exact iff_of_true (by split <;> omega) (by omega)
  · rw [Int.add_sub_cancel]
    split <;> omega
  · have hdays := daysBeforeYear_add_le (show marchYear ≤ year - 1 by omega)
    exact iff_of_false (by split <;> omega) (by omega)

end Date

/-- The years with four digits run from the first second of year 0 to the last before year 10000. -/
theorem Instant.nameable_iff (instant : Instant) : instant.Nameable ↔
    (Date.mk 0 1 1).dayNumber * 86400 ≤ instant.seconds ∧
      instant.seconds < (Date.mk 10000 1 1).dayNumber * 86400 := by
  have hfirst := Date.le_year_ofDayNumber_iff (instant.seconds / 86400) 0
  have hbeyond := Date.le_year_ofDayNumber_iff (instant.seconds / 86400) 10000
  rw [Nameable, date]
  omega

namespace Timestamp

/-! ### Years with four digits -/

theorem offset_zero (between : Scan Unit) : Scan.offset between ['Z'] = some (0, []) := rfl

theorem scanStrict_writeChars {instant : Instant} (hyear : instant.Nameable) :
    scanStrict (writeChars instant) = some (readingOf instant, []) := by
  have hdate := two_digits_date (instant.seconds / 86400)
  have hsecond := second_lt instant
  obtain ⟨date, hdateEq⟩ : ∃ date, date = Date.ofDayNumber (instant.seconds / 86400) := ⟨_, rfl⟩
  rw [Instant.Nameable, Instant.date, ← hdateEq] at hyear
  rw [← hdateEq] at hdate
  have hread : ((date.year.toNat : Nat) : Int) = date.year := Int.toNat_of_nonneg hyear.1
  simp only [writeChars, readingOf, ← hdateEq, List.append_assoc, writeYear, if_pos hyear]
  rw [scanStrict, bind_eq_of_taken (Scan.number_digitsOfWidth (by decide) (by omega)),
    List.cons_append, bind_eq_of_taken (Scan.one_eq (by decide)),
    bind_eq_of_taken (Scan.number_digitsOfWidth (by decide) hdate.1),
    List.cons_append, bind_eq_of_taken (Scan.one_eq (by decide)),
    bind_eq_of_taken (Scan.number_digitsOfWidth (by decide) hdate.2),
    List.cons_append, bind_eq_of_taken (separator_eq _),
    bind_eq_of_taken (Scan.number_digitsOfWidth (by decide) (by omega)),
    List.cons_append, bind_eq_of_taken (Scan.one_eq (by decide)),
    bind_eq_of_taken (Scan.number_digitsOfWidth (by decide) (by omega)),
    List.cons_append, bind_eq_of_taken (Scan.one_eq (by decide)),
    bind_eq_of_taken (Scan.number_digitsOfWidth (by decide) (by omega)),
    bind_eq_of_taken (fraction_append (Nat.mod_lt _ (by decide))),
    bind_eq_of_taken (offset_zero _), hread]
  rfl

/-! ### Years with a sign -/

theorem exists_sign_of_not_nameable {instant : Instant} (hyear : ¬instant.Nameable) :
    ∃ sign rest, writeChars instant = sign :: rest ∧ sign.isDigit = false := by
  rw [Instant.Nameable, Instant.date] at hyear
  simp only [writeChars, writeYear, if_neg hyear, List.cons_append]
  refine ⟨_, _, rfl, ?_⟩
  split <;> decide

theorem scanStrict_cons_of_not_isDigit {sign : Char} (rest : List Char)
    (hsign : sign.isDigit = false) : scanStrict (sign :: rest) = none := by
  have hnumber : Scan.number 4 4 (sign :: rest) = none := by
    simp [Scan.number, hsign]
  change (Scan.number 4 4 (sign :: rest)).bind _ = none
  rw [hnumber, Option.bind_none]

/-- The strict form of a timestamp says the instant it names, or nothing. -/
theorem readStrict?_write (instant : Instant) :
    readStrict? (write instant) = if instant.Nameable then some instant.spelled else none := by
  rw [readStrict?, write, String.toList_ofList]
  split
  case isTrue hyear =>
    rw [← writeChars_spelled, scanStrict_writeChars (instant.nameable_spelled.2 hyear)]
    exact instant?_readingOf instant.regular_spelled
  case isFalse hyear =>
    obtain ⟨sign, rest, hchars, hsign⟩ := exists_sign_of_not_nameable hyear
    rw [hchars, scanStrict_cons_of_not_isDigit rest hsign]
    rfl

end Timestamp

end Annals
