/-!
# Numerals

Unsigned decimal numerals as people write them into settings and message fields: an optional plus
sign and at least one ASCII digit, with a value below a bound. Reading goes from left to right and
reports the first thing wrong, so a numeral that has already grown too large is not searched for a
bad digit behind it.
-/

namespace Annals

inductive NumeralError where
  | empty
  | invalidDigit
  | tooLarge
  deriving DecidableEq, Repr

def NumeralError.message : NumeralError → String
  | .empty => "cannot parse integer from empty string"
  | .invalidDigit => "invalid digit found in string"
  | .tooLarge => "number too large to fit in target type"

def digitValue? (c : Char) : Option Nat :=
  if c.isDigit then some (c.toNat - '0'.toNat) else none

namespace Numeral

def push (bound value : Nat) (c : Char) : Except NumeralError Nat :=
  match digitValue? c with
  | none => .error .invalidDigit
  | some digit => if 10 * value + digit < bound then .ok (10 * value + digit) else .error .tooLarge

/-- The value of a run of digits; the empty run has none. -/
def readDigits (bound : Nat) : List Char → Except NumeralError Nat
  | [] => .error .invalidDigit
  | digits => digits.foldlM (push bound) 0

def read (bound : Nat) : List Char → Except NumeralError Nat
  | [] => .error .empty
  | '+' :: digits => readDigits bound digits
  | digits => readDigits bound digits

end Numeral

/-- The decimal digits of a number, without leading zeros. -/
def digits (n : Nat) : List Char :=
  Nat.toDigits 10 n

/-- Exactly `width` decimal digits of `n`, with zeros in front; the digits above are cut. -/
def digitsOfWidth : Nat → Nat → List Char
  | 0, _ => []
  | width + 1, n => digitsOfWidth width (n / 10) ++ [Nat.digitChar (n % 10)]

/-- At least `width` decimal digits, with zeros in front where there are fewer. -/
def digitsPadded (width n : Nat) : List Char :=
  List.replicate (width - (digits n).length) '0' ++ digits n

def wordText (n : UInt64) : String :=
  String.ofList (digits n.toNat)

def readWord (text : String) : Except NumeralError UInt64 :=
  (Numeral.read UInt64.size text.toList).map UInt64.ofNat

end Annals
