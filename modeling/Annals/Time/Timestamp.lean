import Annals.Text.Blank
import Annals.Text.Numeral
import Annals.Time.Instant

/-!
# Timestamps

The text of an instant, and two readers of it. The writer prints universal time with the fewest
fraction digits, in groups of three, that are exact. The lenient reader takes what people write: blanks
between the parts, one digit where two are usual, any sign and length of year, any offset. The strict
reader takes the fixed-width form alone, so it has no word for a year outside 0 to 9999.
-/

namespace Annals.Timestamp

/-! ### Writing -/

/-- Four digits for the years that have them; other years carry a sign. -/
def writeYear (year : Int) : List Char :=
  if 0 ≤ year ∧ year ≤ 9999 then digitsOfWidth 4 year.toNat
  else (if year < 0 then '-' else '+') :: digitsPadded 4 year.natAbs

/-- The fraction of a second, in the shortest exact form of zero, three, six or nine digits. -/
def writeFraction (nanos : Nat) : List Char :=
  if nanos = 0 then []
  else if nanos % 1000000 = 0 then '.' :: digitsOfWidth 3 (nanos / 1000000)
  else if nanos % 1000 = 0 then '.' :: digitsOfWidth 6 (nanos / 1000)
  else '.' :: digitsOfWidth 9 nanos

/-- The characters of a timestamp. A leap second is second sixty of its minute. -/
def writeChars (instant : Instant) : List Char :=
  let date := Date.ofDayNumber (instant.seconds / 86400)
  let clock := (instant.seconds % 86400).toNat
  let leap := instant.nanos / 1000000000
  writeYear date.year ++ '-' :: digitsOfWidth 2 date.month ++ '-' :: digitsOfWidth 2 date.day ++
    'T' :: digitsOfWidth 2 (clock / 3600) ++ ':' :: digitsOfWidth 2 (clock / 60 % 60) ++
    ':' :: digitsOfWidth 2 (clock % 60 + leap) ++ writeFraction (instant.nanos % 1000000000) ++ ['Z']

def write (instant : Instant) : String :=
  String.ofList (writeChars instant)

/-! ### What a timestamp says -/

/-- A local time and its offset from universal time in seconds. -/
structure Reading where
  date : Date
  hour : Nat
  minute : Nat
  second : Nat
  nanos : Nat
  offset : Int

/-- The instant of a local time. The date and the clock must exist, and second sixty stands for the
leap second behind second fifty-nine. -/
def Reading.instant? (reading : Reading) : Option Instant :=
  let leap := reading.second = 60
  let second := if leap then 59 else reading.second
  let localSecond : Int :=
    reading.date.dayNumber * 86400 + reading.hour * 3600 + reading.minute * 60 + second
  let nanos := reading.nanos + if leap then 1000000000 else 0
  if reading.date.exists? ∧ reading.hour < 24 ∧ reading.minute < 60 ∧ reading.second ≤ 60 ∧
      earliestSecond ≤ localSecond ∧ localSecond ≤ latestSecond then
    Instant.of? (localSecond - reading.offset) nanos
  else none

/-! ### Reading -/

/-- Takes something off the front of the characters, or fails. -/
abbrev Scan := StateT (List Char) Option

namespace Scan

def blanks : Scan Unit :=
  modify (·.dropWhile isBlank)

def one (allowed : Char → Bool) : Scan Char := fun chars =>
  match chars with
  | c :: rest => if allowed c then some (c, rest) else none
  | [] => none

def number (least most : Nat) : Scan Nat := fun chars =>
  let run := (chars.take most).takeWhile Char.isDigit
  if least ≤ run.length then some (Nat.ofDigitChars 10 run 0, chars.drop run.length) else none

def wholeNumber : Scan Nat := fun chars =>
  number 1 chars.length chars

/-- The digits behind the point, as nanoseconds; those past the ninth are too fine to matter. -/
def fraction : Scan Nat := fun chars =>
  match chars with
  | '.' :: rest =>
    let run := rest.takeWhile Char.isDigit
    let kept := run.take 9
    if run = [] then none
    else some (Nat.ofDigitChars 10 kept 0 * Nat.pow 10 (9 - kept.length), rest.drop run.length)
  | _ => some (0, chars)

def separator : Scan Char :=
  one fun c => c = 'T' || c = 't' || c = ' '

/-- An offset from universal time, in seconds: the letter for none, or a sign, hours and minutes with
`between` them. -/
def offset (between : Scan Unit) : Scan Int := fun chars =>
  match chars with
  | 'Z' :: rest | 'z' :: rest => some (0, rest)
  | sign :: rest =>
    if sign = '+' ∨ sign = '-' ∨ sign = '−' then
      let magnitude : Scan Int := do
        let hours ← number 2 2
        between
        let minutes ← number 2 2
        if hours < 24 ∧ minutes < 60 then pure (hours * 3600 + minutes * 60 : Int) else failure
      (magnitude rest).map fun (seconds, rest) => (if sign = '+' then seconds else -seconds, rest)
    else none
  | [] => none

end Scan

/-- A year: up to four digits, or a sign and any number of them. -/
def scanYear : Scan Int := fun chars =>
  match chars with
  | '-' :: rest => (Scan.wholeNumber rest).map fun (year, rest) => (-(year : Int), rest)
  | '+' :: rest => (Scan.wholeNumber rest).map fun (year, rest) => ((year : Int), rest)
  | _ => (Scan.number 1 4 chars).map fun (year, rest) => ((year : Int), rest)

/-- A mark of punctuation with blanks allowed on both sides. -/
def scanMark (mark : Char) : Scan Unit := do
  Scan.blanks
  let _ ← Scan.one (· = mark)
  Scan.blanks

/-- A zone behind optional blanks: universal time by name, or an offset whose hours and minutes may
stand apart. -/
def scanZone : Scan Int := fun chars =>
  let chars := chars.dropWhile isBlank
  if (chars.take 3).map Char.toUpper = ['U', 'T', 'C'] then some (0, chars.drop 3)
  else Scan.offset (modify (·.dropWhile fun c => c = ':' || isBlank c)) chars

/-- The lenient form of a timestamp, without what may follow it. -/
def scanLenient : Scan Reading := do
  Scan.blanks
  let year ← scanYear
  scanMark '-'
  let month ← Scan.number 1 2
  scanMark '-'
  let day ← Scan.number 1 2
  let _ ← Scan.separator
  Scan.blanks
  let hour ← Scan.number 1 2
  scanMark ':'
  let minute ← Scan.number 1 2
  scanMark ':'
  let second ← Scan.number 1 2
  let nanos ← Scan.fraction
  let offset ← scanZone
  pure ⟨⟨year, month, day⟩, hour, minute, second, nanos, offset⟩

def scanStrict : Scan Reading := do
  let year ← Scan.number 4 4
  let _ ← Scan.one (· = '-')
  let month ← Scan.number 2 2
  let _ ← Scan.one (· = '-')
  let day ← Scan.number 2 2
  let _ ← Scan.separator
  let hour ← Scan.number 2 2
  let _ ← Scan.one (· = ':')
  let minute ← Scan.number 2 2
  let _ ← Scan.one (· = ':')
  let second ← Scan.number 2 2
  let nanos ← Scan.fraction
  let offset ← Scan.offset (do let _ ← Scan.one (· = ':'))
  pure ⟨⟨year, month, day⟩, hour, minute, second, nanos, offset⟩

def read? (text : String) : Option Instant := do
  let (reading, rest) ← scanLenient text.toList
  if rest.all isBlank then reading.instant? else none

def readStrict? (text : String) : Option Instant := do
  let (reading, rest) ← scanStrict text.toList
  if rest.isEmpty then reading.instant? else none

end Annals.Timestamp
