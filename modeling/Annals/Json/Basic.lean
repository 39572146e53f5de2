import Annals.Bytes
import Annals.Text.Numeral

/-!
# JSON values

A value keeps the spelling of its numbers and strings: what a number or a string means is the
business of whoever asks for it, and a value nobody asks for is never refused for its meaning.
Members stay in the order in which they were written, repetitions included.
-/

namespace Annals

/-- A JSON value. The text of a number, and what stands between the quotes of a string or a member's
key, are kept as written. -/
inductive Json where
  | null
  | bool (value : Bool)
  | number (spelling : Bytes)
  | string (spelling : Bytes)
  | array (items : List Json)
  | object (members : List (Bytes × Json))

namespace Json

/-! ### Strings -/

/-- The two octets of an escape without a number. -/
def shortEscape? (b : UInt8) : Option UInt8 :=
  if b = 0x22 ∨ b = 0x5C then some b
  else if b = 0x08 then some 0x62
  else if b = 0x09 then some 0x74
  else if b = 0x0A then some 0x6E
  else if b = 0x0C then some 0x66
  else if b = 0x0D then some 0x72
  else none

def hexDigit (n : Nat) : UInt8 :=
  UInt8.ofNat (if n < 10 then 0x30 + n else 0x57 + n)

/-- How one octet of a text is spelled between quotes: quotes, backslashes and controls are escaped,
everything else stands for itself. -/
def escapeOctet (b : UInt8) : Bytes :=
  match shortEscape? b with
  | some letter => [0x5C, letter]
  | none =>
    if b < 0x20 then [0x5C, 0x75, 0x30, 0x30, hexDigit (b.toNat / 16), hexDigit (b.toNat % 16)]
    else [b]

def escape (text : Bytes) : Bytes :=
  text.flatMap escapeOctet

/-- The octet that a letter behind a backslash stands for. -/
def unescapeLetter? (letter : UInt8) : Option UInt8 :=
  if letter = 0x22 ∨ letter = 0x5C ∨ letter = 0x2F then some letter
  else if letter = 0x62 then some 0x08
  else if letter = 0x74 then some 0x09
  else if letter = 0x6E then some 0x0A
  else if letter = 0x66 then some 0x0C
  else if letter = 0x72 then some 0x0D
  else none

def hexValue? (b : UInt8) : Option Nat :=
  let n := b.toNat
  if 0x30 ≤ n ∧ n ≤ 0x39 then some (n - 0x30)
  else if 0x61 ≤ n ∧ n ≤ 0x66 then some (n - 0x57)
  else if 0x41 ≤ n ∧ n ≤ 0x46 then some (n - 0x37)
  else none

def hexNumber? (a b c d : UInt8) : Option Nat := do
  let a ← hexValue? a
  let b ← hexValue? b
  let c ← hexValue? c
  let d ← hexValue? d
  some (((a * 16 + b) * 16 + c) * 16 + d)

/-- The character for the two halves of a surrogate pair. -/
def pairedCodePoint (high low : Nat) : Nat :=
  0x10000 + (high - 0xD800) * 0x400 + (low - 0xDC00)

/-- The octets of the text with this spelling. A high surrogate must be followed by a low one, and a
low one may not stand alone. -/
def unescape? : Bytes → Option Bytes
  | [] => some []
  | 0x5C :: 0x75 :: a :: b :: c :: d :: rest =>
    match hexNumber? a b c d with
    | none => none
    | some high =>
      if 0xD800 ≤ high ∧ high < 0xDC00 then
        match rest with
        | 0x5C :: 0x75 :: e :: f :: g :: h :: rest =>
          match hexNumber? e f g h with
          | none => none
          | some low =>
            if 0xDC00 ≤ low ∧ low < 0xE000 then
              (unescape? rest).map
                (String.utf8EncodeChar (Char.ofNat (pairedCodePoint high low)) ++ ·)
            else none
        | _ => none
      else if 0xDC00 ≤ high ∧ high < 0xE000 then none
      else (unescape? rest).map (String.utf8EncodeChar (Char.ofNat high) ++ ·)
  | 0x5C :: letter :: rest =>
    match unescapeLetter? letter with
    | none => none
    | some b => (unescape? rest).map (b :: ·)
  | b :: rest => if b = 0x5C then none else (unescape? rest).map (b :: ·)

/-- The text with this spelling, absent when an escape or the octets between make no text. -/
def textOf? (spelling : Bytes) : Option String :=
  (unescape? spelling).bind ofUtf8?

/-! ### Making values -/

def ofText (text : String) : Json :=
  .string (escape (utf8 text))

def ofNat (n : Nat) : Json :=
  .number (octets (digits n))

def ofInt (n : Int) : Json :=
  match n with
  | .ofNat n => ofNat n
  | .negSucc n => .number (0x2D :: octets (digits (n + 1)))

def ofRecord (members : List (String × Json)) : Json :=
  .object (members.map fun (key, value) => (escape (utf8 key), value))

/-! ### Meaning -/

def decimal? (spelling : Bytes) : Option Nat :=
  if spelling.chars.all Char.isDigit then some (Nat.ofDigitChars 10 spelling.chars 0) else none

/-- The natural number a value spells with digits alone. -/
def natural? : Json → Option Nat
  | .number spelling => decimal? spelling
  | _ => none

/-- The integer a value spells with digits and perhaps a minus sign. Zero carries no sign. -/
def integer? : Json → Option Int
  | .number (0x2D :: spelling) =>
    match decimal? spelling with
    | some (n + 1) => some (.negSucc n)
    | _ => none
  | value => (natural? value).map Int.ofNat

def text? : Json → Option String
  | .string spelling => textOf? spelling
  | _ => none

def bool? : Json → Option Bool
  | .bool value => some value
  | _ => none

/-! ### Writing -/

def separated : List Bytes → Bytes
  | [] => []
  | [part] => part
  | part :: parts => part ++ 0x2C :: separated parts

mutual

/-- The octets of a value, without blanks. -/
def write : Json → Bytes
  | .null => octets ['n', 'u', 'l', 'l']
  | .bool true => octets ['t', 'r', 'u', 'e']
  | .bool false => octets ['f', 'a', 'l', 's', 'e']
  | .number spelling => spelling
  | .string spelling => 0x22 :: spelling ++ [0x22]
  | .array items => 0x5B :: separated (writeItems items) ++ [0x5D]
  | .object members => 0x7B :: separated (writeMembers members) ++ [0x7D]

def writeItems : List Json → List Bytes
  | [] => []
  | item :: items => write item :: writeItems items

def writeMembers : List (Bytes × Json) → List Bytes
  | [] => []
  | (key, value) :: members => (0x22 :: key ++ 0x22 :: 0x3A :: write value) :: writeMembers members

end

end Json

end Annals
