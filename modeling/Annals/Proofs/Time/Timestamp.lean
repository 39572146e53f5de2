import Annals.Bytes
import Annals.Proofs.Text.Numeral
import Annals.Proofs.Time.Calendar
import Annals.Time.Timestamp

/-!
# Timestamps read back

A timestamp that was written is read back as the instant it was written for, in every year and also in
a leap second. Only a leap second that is not the last of its minute has no timestamp of its own: it is
written as the second behind it, and comes back as that. Each part of the text is taken off the front by
the scanner that is meant for it, and the rest of the text says where the part ends.
-/

namespace Annals

/-- What a reader took off the front is handed on, and so is what it left. -/
theorem bind_eq_of_taken {σ α β : Type} {read : StateT σ Option α} {next : α → StateT σ Option β}
    {input rest : σ} {value : α} (h : read input = some (value, rest)) :
    (read >>= next) input = next value rest := by
  simp only [bind, StateT.bind, h, Option.bind_some]

theorem length_utf8_ofList_le (chars : List Char) :
    (utf8 (String.ofList chars)).length ≤ 4 * chars.length := by
  have hsize : (utf8 (String.ofList chars)).length = (chars.map Char.utf8Size).sum := by
    rw [utf8, String.toByteArray_ofList, List.utf8Encode]
    simp [List.length_flatMap]
  rw [hsize]
  clear hsize
  induction chars with
  | nil => exact Nat.zero_le _
  | cons c chars ih =>
    have hc := c.utf8Size_le_four
    rw [List.map_cons, List.sum_cons, List.length_cons]
    omega

namespace Timestamp

/-- Whether a text goes on with something that is no digit. -/
def EndsNumber (rest : List Char) : Prop :=
  ∀ c, rest.head? = some c → c.isDigit = false

theorem endsNumber_cons {c : Char} {rest : List Char} (h : c.isDigit = false) :
    EndsNumber (c :: rest) := by
  intro other hhead
  rw [← Option.some.inj hhead]
  exact h

/-! ### Scanners -/

namespace Scan

theorem takeWhile_isDigit {run rest : List Char} (hrun : ∀ c ∈ run, c.isDigit)
    (hrest : EndsNumber rest) : (run ++ rest).takeWhile Char.isDigit = run := by
  rw [List.takeWhile_append_of_pos hrun]
  cases rest with
  | nil => rw [List.takeWhile_nil, List.append_nil]
  | cons c rest =>
    rw [List.takeWhile_cons_of_neg, List.append_nil]
    rw [hrest c rfl]
    decide

/-- A run of digits is taken for a number if it is as long as it may be, or if no digit follows it. -/
theorem number_append {least most : Nat} {run rest : List Char} (hrun : ∀ c ∈ run, c.isDigit)
    (hleast : least ≤ run.length) (hmost : run.length ≤ most)
    (hrest : run.length = most ∨ EndsNumber rest) :
    number least most (run ++ rest) = some (Nat.ofDigitChars 10 run 0, rest) := by
  have htaken : ((run ++ rest).take most).takeWhile Char.isDigit = run := by
    rw [← List.take_takeWhile]
    cases hrest with
    | inl hfull =>
      rw [List.takeWhile_append_of_pos hrun, ← hfull, List.take_left]
    | inr hend =>
      rw [takeWhile_isDigit hrun hend]
      exact List.take_of_length_le hmost
  simp only [number, htaken, if_pos hleast, List.drop_left]

theorem wholeNumber_append {run rest : List Char} (hrun : ∀ c ∈ run, c.isDigit) (hne : run ≠ [])
    (hrest : EndsNumber rest) :
    wholeNumber (run ++ rest) = some (Nat.ofDigitChars 10 run 0, rest) := by
  rw [wholeNumber]
  refine number_append hrun (List.length_pos_iff.2 hne) ?_ (.inr hrest)
  rw [List.length_append]
  exact Nat.le_add_right _ _

/-- A number of fixed width needs nothing behind it to end. -/
theorem number_digitsOfWidth {least width n : Nat} {rest : List Char} (hleast : least ≤ width)
    (hn : n < 10 ^ width) :
    number least width (digitsOfWidth width n ++ rest) = some (n, rest) := by
  rw [number_append (fun c => isDigit_of_mem_digitsOfWidth) (by simpa using hleast) (by simp)
    (.inl (by simp)), ofDigitChars_digitsOfWidth, Nat.mod_eq_of_lt hn]

/-- What goes on without a blank loses nothing to the scanner of blanks. -/
theorem blanks_eq {c : Char} {rest : List Char} (h : isBlank c = false) :
    blanks (c :: rest) = some ((), c :: rest) := by
  rw [blanks]
  change some ((), (c :: rest).dropWhile isBlank) = _
  rw [List.dropWhile_cons_of_neg]
  rw [h]
  decide

theorem one_eq {allowed : Char → Bool} {c : Char} {rest : List Char} (h : allowed c) :
    one allowed (c :: rest) = some (c, rest) := by
  rw [one, if_pos h]

end Scan

/-! ### The parts of a timestamp -/

theorem scanYear_append (year : Int) (rest : List Char) (hrest : EndsNumber rest) :
    scanYear (writeYear year ++ rest) = some (year, rest) := by
  rw [writeYear]
  split
  case isTrue hplain =>
    have hread : Scan.number 1 4 (digitsOfWidth 4 year.toNat ++ rest) = some (year.toNat, rest) :=
      Scan.number_digitsOfWidth (by decide) (by omega)
    have hyear : ((year.toNat : Nat) : Int) = year := Int.toNat_of_nonneg hplain.1
    cases hdigits : digitsOfWidth 4 year.toNat with
    | nil =>
      have hlength := length_digitsOfWidth 4 year.toNat
      rw [hdigits] at hlength
      cases hlength
    | cons c run =>
      have hdigit : c.isDigit := isDigit_of_mem_digitsOfWidth (hdigits ▸ List.mem_cons_self)
      rw [hdigits] at hread
      rw [List.cons_append] at hread ⊢
      unfold scanYear
      split
      case h_1 heq =>
        cases heq
        exact absurd hdigit (by decide)
      case h_2 heq =>
        cases heq
        exact absurd hdigit (by decide)
      case h_3 => simp only [hread, Option.map_some, hyear]
  case isFalse =>
    have hread : Scan.wholeNumber (digitsPadded 4 year.natAbs ++ rest) =
        some (year.natAbs, rest) := by
      rw [Scan.wholeNumber_append (fun c => isDigit_of_mem_digitsPadded) (digitsPadded_ne_nil _ _)
        hrest, ofDigitChars_digitsPadded]
    by_cases hsign : year < 0
    · rw [if_pos hsign, List.cons_append]
      simp only [scanYear, hread, Option.map_some]
      congr 2
      omega
    · rw [if_neg hsign, List.cons_append]
      simp only [scanYear, hread, Option.map_some]
      congr 2
      omega

/-- The digits of a fraction, however many there are, say the nanoseconds. -/
theorem fraction_digitsOfWidth {width n : Nat} {rest : List Char} (hwidth : 0 < width)
    (hmost : width ≤ 9) (hn : n < 10 ^ width) (hrest : EndsNumber rest) :
    Scan.fraction ('.' :: digitsOfWidth width n ++ rest) = some (n * 10 ^ (9 - width), rest) := by
  have hrun : (digitsOfWidth width n ++ rest).takeWhile Char.isDigit = digitsOfWidth width n :=
    Scan.takeWhile_isDigit (fun c => isDigit_of_mem_digitsOfWidth) hrest
  have hne : digitsOfWidth width n ≠ [] := by
    rw [← List.length_pos_iff, length_digitsOfWidth]
    exact hwidth
  have hkept : (digitsOfWidth width n).take 9 = digitsOfWidth width n := by
    apply List.take_of_length_le
    rw [length_digitsOfWidth]
    exact hmost
  have hrest : (digitsOfWidth width n ++ rest).drop width = rest := by
    apply List.drop_left'
    exact length_digitsOfWidth width n
  rw [List.cons_append]
  simp only [Scan.fraction, hrun, if_neg hne, hkept, ofDigitChars_digitsOfWidth,
    Nat.mod_eq_of_lt hn, length_digitsOfWidth, hrest]
  rfl

theorem separator_eq (rest : List Char) : Scan.separator ('T' :: rest) = some ('T', rest) :=
  Scan.one_eq (by decide)

theorem fraction_append {nanos : Nat} (hnanos : nanos < 1000000000) :
    Scan.fraction (writeFraction nanos ++ ['Z']) = some (nanos, ['Z']) := by
  have hend : EndsNumber ['Z'] := endsNumber_cons (by decide)
  rw [writeFraction]
  split
  case isTrue hzero =>
    subst hzero
    rfl
  case isFalse =>
    split
    case isTrue hmillis =>
      rw [fraction_digitsOfWidth (by decide) (by decide) (by omega) hend]
      congr 2
      omega
    case isFalse =>
      split
      case isTrue hmicros =>
        rw [fraction_digitsOfWidth (by decide) (by decide) (by omega) hend]
        congr 2
        omega
      case isFalse =>
        rw [fraction_digitsOfWidth (by decide) (by decide) (by omega) hend, Nat.sub_self,
          Nat.pow_zero, Nat.mul_one]

theorem scanZone_eq : scanZone ['Z'] = some (0, []) := by
  decide

/-! ### The whole text -/

/-- What the text of an instant says, part by part. -/
def readingOf (instant : Instant) : Reading :=
  let clock := (instant.seconds % 86400).toNat
  { date := Date.ofDayNumber (instant.seconds / 86400)
    hour := clock / 3600
    minute := clock / 60 % 60
    second := clock % 60 + instant.nanos / 1000000000
    nanos := instant.nanos % 1000000000
    offset := 0 }

theorem blanks_digitsOfWidth {width n : Nat} {rest : List Char} (hwidth : 0 < width) :
    Scan.blanks (digitsOfWidth width n ++ rest) = some ((), digitsOfWidth width n ++ rest) := by
  cases hdigits : digitsOfWidth width n with
  | nil =>
    have hlength := length_digitsOfWidth width n
    rw [hdigits, List.length_nil] at hlength
    omega
  | cons c run =>
    apply Scan.blanks_eq
    exact isBlank_of_isDigit (isDigit_of_mem_digitsOfWidth (hdigits ▸ List.mem_cons_self))

theorem scanMark_digitsOfWidth {mark : Char} {width n : Nat} {rest : List Char}
    (hmark : isBlank mark = false) (hwidth : 0 < width) :
    scanMark mark (mark :: digitsOfWidth width n ++ rest) =
      some ((), digitsOfWidth width n ++ rest) := by
  rw [scanMark, List.cons_append, bind_eq_of_taken (Scan.blanks_eq hmark),
    bind_eq_of_taken (Scan.one_eq (by simp)), blanks_digitsOfWidth hwidth]

theorem blanks_writeYear (year : Int) (rest : List Char) :
    Scan.blanks (writeYear year ++ rest) = some ((), writeYear year ++ rest) := by
  rw [writeYear]
  split
  · exact blanks_digitsOfWidth (by decide)
  · apply Scan.blanks_eq
    split <;> decide

/-- The clock of a valid instant has two digits everywhere. -/
theorem second_lt (instant : Instant) :
    (instant.seconds % 86400).toNat % 60 + instant.nanos / 1000000000 ≤ 60 := by
  have hvalid := instant.valid
  simp only [isInstant, Bool.and_eq_true, decide_eq_true_eq] at hvalid
  omega

theorem two_digits_date (number : Int) :
    (Date.ofDayNumber number).month < 10 ^ 2 ∧ (Date.ofDayNumber number).day < 10 ^ 2 := by
  have hdate := Date.exists?_ofDayNumber number
  simp only [Date.exists?, Bool.and_eq_true, decide_eq_true_eq] at hdate
  obtain ⟨⟨⟨-, hmonth⟩, -⟩, hday⟩ := hdate
  refine ⟨by omega, ?_⟩
  rw [daysInMonth] at hday
  split at hday
  · split at hday <;> omega
  · split at hday <;> omega

theorem scanLenient_writeChars (instant : Instant) :
    scanLenient (writeChars instant) = some (readingOf instant, []) := by
  have hdate := two_digits_date (instant.seconds / 86400)
  have hsecond := second_lt instant
  obtain ⟨date, hdateEq⟩ : ∃ date, date = Date.ofDayNumber (instant.seconds / 86400) := ⟨_, rfl⟩
  rw [← hdateEq] at hdate
  simp only [writeChars, readingOf, ← hdateEq, List.append_assoc]
  rw [scanLenient, bind_eq_of_taken (blanks_writeYear _ _),
    bind_eq_of_taken
      (scanYear_append _ ('-' :: digitsOfWidth 2 _ ++ _) (endsNumber_cons (by decide))),
    bind_eq_of_taken (scanMark_digitsOfWidth (by decide) (by decide)),
    bind_eq_of_taken (Scan.number_digitsOfWidth (by decide) hdate.1),
    bind_eq_of_taken (scanMark_digitsOfWidth (by decide) (by decide)),
    bind_eq_of_taken (Scan.number_digitsOfWidth (by decide) hdate.2), List.cons_append,
    bind_eq_of_taken (separator_eq _), bind_eq_of_taken (blanks_digitsOfWidth (by decide)),
    bind_eq_of_taken (Scan.number_digitsOfWidth (by decide) (by omega)),
    bind_eq_of_taken (scanMark_digitsOfWidth (by decide) (by decide)),
    bind_eq_of_taken (Scan.number_digitsOfWidth (by decide) (by omega)),
    bind_eq_of_taken (scanMark_digitsOfWidth (by decide) (by decide)),
    bind_eq_of_taken (Scan.number_digitsOfWidth (by decide) (by omega)),
    bind_eq_of_taken (fraction_append (Nat.mod_lt _ (by decide))), bind_eq_of_taken scanZone_eq]
  rfl

theorem instant?_readingOf {instant : Instant} (hregular : instant.Regular) :
    (readingOf instant).instant? = some instant := by
  obtain ⟨seconds, nanos, hvalid⟩ := instant
  have hbounds := hvalid
  simp only [isInstant, Bool.and_eq_true, decide_eq_true_eq] at hbounds
  have hlast : nanos < 1000000000 ∨ seconds % 60 = 59 := hregular
  have hdate := Date.exists?_ofDayNumber (seconds / 86400)
  obtain ⟨clock, hclock⟩ : ∃ clock, clock = (seconds % 86400).toNat := ⟨_, rfl⟩
  obtain ⟨leap, hleap⟩ : ∃ leap, leap = nanos / 1000000000 := ⟨_, rfl⟩
  have hlocal : seconds / 86400 * 86400 + ((clock / 3600 : Nat) : Int) * 3600 +
      ((clock / 60 % 60 : Nat) : Int) * 60 + ((clock % 60 : Nat) : Int) = seconds := by omega
  have hsecond : (if clock % 60 + leap = 60 then 59 else clock % 60 + leap) = clock % 60 := by
    split <;> omega
  have hnanos : (nanos % 1000000000 + if clock % 60 + leap = 60 then 1000000000 else 0) = nanos := by
    split <;> omega
  have hguard : (Date.ofDayNumber (seconds / 86400)).exists? ∧ clock / 3600 < 24 ∧
      clock / 60 % 60 < 60 ∧ clock % 60 + leap ≤ 60 ∧ earliestSecond ≤ seconds ∧
      seconds ≤ latestSecond := ⟨hdate, by omega, by omega, by omega, by omega, by omega⟩
  simp only [readingOf, Reading.instant?, Date.dayNumber_ofDayNumber, ← hclock, ← hleap, hsecond,
    hnanos, hlocal, if_pos hguard, Int.sub_zero, Instant.of?, dif_pos hvalid, if_pos hregular]

theorem read?_write_of_regular {instant : Instant} (hregular : instant.Regular) :
    read? (write instant) = some instant := by
  rw [read?, write, String.toList_ofList, scanLenient_writeChars]
  exact instant?_readingOf hregular

end Timestamp

/-! ### Instants without a timestamp of their own -/

namespace Instant

variable {instant : Instant}

theorem valid_of_not_regular (h : ¬instant.Regular) :
    isInstant (instant.seconds + 1) (instant.nanos - 1000000000) := by
  have hvalid := instant.valid
  have hlatest : latestSecond % 60 = 59 := by decide
  simp only [Regular, isInstant, Bool.and_eq_true, decide_eq_true_eq] at h hvalid ⊢
  omega

/-- The instant that the timestamp of an instant names. -/
def spelled (instant : Instant) : Instant :=
  if h : instant.Regular then instant
  else ⟨instant.seconds + 1, instant.nanos - 1000000000, valid_of_not_regular h⟩

theorem spelled_of_regular (h : instant.Regular) : instant.spelled = instant :=
  dif_pos h

theorem regular_spelled (instant : Instant) : instant.spelled.Regular := by
  have hvalid := instant.valid
  simp only [isInstant, Bool.and_eq_true, decide_eq_true_eq] at hvalid
  by_cases h : instant.Regular
  · rwa [spelled_of_regular h]
  · rw [spelled, dif_neg h]
    left
    change instant.nanos - 1000000000 < 1000000000
    omega

theorem spelled_eq_self_iff : instant.spelled = instant ↔ instant.Regular :=
  ⟨fun h => h ▸ regular_spelled instant, spelled_of_regular⟩

theorem spelled_of_not_regular (h : ¬instant.Regular) :
    instant.spelled.seconds = instant.seconds + 1 ∧
      instant.spelled.nanos + 1000000000 = instant.nanos := by
  rw [spelled, dif_neg h]
  rw [Regular, not_or] at h
  exact ⟨rfl, Nat.sub_add_cancel (Nat.le_of_not_lt h.1)⟩

/-- What a timestamp names is never of another day. -/
theorem day_spelled (instant : Instant) :
    instant.spelled.seconds / 86400 = instant.seconds / 86400 := by
  by_cases h : instant.Regular
  · rw [spelled_of_regular h]
  · rw [spelled, dif_neg h]
    rw [Regular] at h
    change (instant.seconds + 1) / 86400 = instant.seconds / 86400
    omega

/-- Half past twelve, with a leap second set by hand. -/
def halfPastTwelve : Instant :=
  ⟨45000, 1500000000, by decide⟩

end Instant

namespace Timestamp

theorem writeChars_spelled (instant : Instant) : writeChars instant.spelled = writeChars instant := by
  by_cases h : instant.Regular
  · rw [Instant.spelled_of_regular h]
  · have hvalid := instant.valid
    have hday := instant.day_spelled
    rw [Instant.spelled, dif_neg h] at hday ⊢
    simp only [Instant.Regular, isInstant, Bool.and_eq_true, decide_eq_true_eq] at h hvalid hday
    obtain ⟨clock, hclock⟩ : ∃ clock, clock = (instant.seconds % 86400).toNat := ⟨_, rfl⟩
    have hnext : ((instant.seconds + 1) % 86400).toNat = clock + 1 := by omega
    have hhour : (clock + 1) / 3600 = clock / 3600 := by omega
    have hminute : (clock + 1) / 60 = clock / 60 := by omega
    have hsecond : (clock + 1) % 60 + (instant.nanos - 1000000000) / 1000000000 =
        clock % 60 + instant.nanos / 1000000000 := by omega
    have hnanos : (instant.nanos - 1000000000) % 1000000000 = instant.nanos % 1000000000 := by omega
    simp only [writeChars, hday, hnext, ← hclock, hhour, hminute, hsecond, hnanos]

theorem read?_write (instant : Instant) : read? (write instant) = some instant.spelled := by
  rw [write, ← writeChars_spelled]
  exact read?_write_of_regular instant.regular_spelled

/-! ### Length -/

/-- Timestamps name no year of more than six digits. -/
theorem length_writeYear_le {year : Int} (h : year.natAbs < 10 ^ 6) :
    (writeYear year).length ≤ 7 := by
  rw [writeYear]
  split
  · rw [length_digitsOfWidth]
    decide
  · have hdigits : (digits year.natAbs).length ≤ 6 :=
      (Nat.length_toDigits_le_iff (by decide) (by decide)).2 h
    rw [List.length_cons, digitsPadded, List.length_append, List.length_replicate]
    omega

theorem length_writeFraction_le (nanos : Nat) : (writeFraction nanos).length ≤ 10 := by
  rw [writeFraction]
  split
  · exact Nat.zero_le _
  · split
    · simp
    · split <;> simp

theorem natAbs_year_lt (instant : Instant) :
    (Date.ofDayNumber (instant.seconds / 86400)).year.natAbs < 10 ^ 6 := by
  have hvalid := instant.valid
  have hearliest : earliestSecond = -8334601228800 := by decide
  have hlatest : latestSecond = 8210266876799 := by decide
  simp only [isInstant, Bool.and_eq_true, decide_eq_true_eq, hearliest, hlatest] at hvalid
  obtain ⟨year, dayOfYear, hfirst, hlast, hnumber, hdate⟩ :=
    Date.ofDayNumber_eq (instant.seconds / 86400)
  have hrange : dayOfYear < 366 := by
    split at hlast <;> omega
  have hyear : (Date.ofDayOfYear year dayOfYear).year = year ∨
      (Date.ofDayOfYear year dayOfYear).year = year + 1 := by
    simp only [Date.ofDayOfYear]
    split
    · exact .inr rfl
    · exact .inl (Int.add_zero year)
  rw [Date.daysBeforeYear, Date.epochDay] at hnumber
  rw [hdate]
  omega

theorem length_utf8_write_lt (instant : Instant) : (utf8 (write instant)).length < UInt64.size := by
  have hyear := length_writeYear_le (natAbs_year_lt instant)
  have hfraction := length_writeFraction_le (instant.nanos % 1000000000)
  have hchars : (writeChars instant).length ≤ 33 := by
    simp only [writeChars, List.length_append, List.length_cons, List.length_nil,
      length_digitsOfWidth]
    omega
  calc (utf8 (write instant)).length
    _ ≤ 4 * (writeChars instant).length := length_utf8_ofList_le _
    _ ≤ 4 * 33 := Nat.mul_le_mul_left 4 hchars
    _ < UInt64.size := by decide

end Timestamp

end Annals
