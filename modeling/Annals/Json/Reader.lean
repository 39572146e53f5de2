import Annals.Json.Basic

/-!
# Reading JSON

A machine that takes one octet at a time. What it has opened and not yet closed stands on a stack of
its own, so values may nest to any depth, and what it has read so far stands in its state, so a text
that breaks off anywhere inside a value leaves the machine in a state that holds no value.
-/

namespace Annals.Json

def isBlankOctet (b : UInt8) : Bool :=
  b = 0x20 || b = 0x09 || b = 0x0A || b = 0x0D

def isDigitOctet (b : UInt8) : Bool :=
  0x30 ≤ b && b ≤ 0x39

/-- How far the spelling of a number has come. -/
inductive NumberPart where
  | sign
  | zero
  | whole
  | point
  | fraction
  | mark
  | markSign
  | exponent
  deriving DecidableEq

def NumberPart.complete : NumberPart → Bool
  | .zero | .whole | .fraction | .exponent => true
  | _ => false

/-- Where one more octet takes the spelling of a number, absent when it cannot belong to it. -/
def NumberPart.next? (part : NumberPart) (b : UInt8) : Option NumberPart :=
  match part with
  | .sign => if b = 0x30 then some .zero else if isDigitOctet b then some .whole else none
  | .zero =>
    if b = 0x2E then some .point else if b = 0x65 ∨ b = 0x45 then some .mark else none
  | .whole =>
    if isDigitOctet b then some .whole
    else if b = 0x2E then some .point
    else if b = 0x65 ∨ b = 0x45 then some .mark
    else none
  | .point => if isDigitOctet b then some .fraction else none
  | .fraction =>
    if isDigitOctet b then some .fraction
    else if b = 0x65 ∨ b = 0x45 then some .mark
    else none
  | .mark =>
    if b = 0x2B ∨ b = 0x2D then some .markSign
    else if isDigitOctet b then some .exponent
    else none
  | .markSign | .exponent => if isDigitOctet b then some .exponent else none

def NumberPart.first? (b : UInt8) : Option NumberPart :=
  if b = 0x2D then some .sign else NumberPart.sign.next? b

/-- What the next octet of a string has to be. -/
inductive StringPart where
  | plain
  | escaped
  | hex (left : Nat)
  deriving DecidableEq

/-- Where one more octet takes the inside of a string. The closing quote is not asked for here. -/
def StringPart.next? (part : StringPart) (b : UInt8) : Option StringPart :=
  match part with
  | .plain => if b < 0x20 then none else if b = 0x5C then some .escaped else some .plain
  | .escaped =>
    if b = 0x75 then some (.hex 3) else if (unescapeLetter? b).isSome then some .plain else none
  | .hex left =>
    if (hexValue? b).isSome then
      match left with
      | 0 => some .plain
      | left + 1 => some (.hex left)
    else none

/-- An open container with what it holds so far, the newest first. An open object waits for the value
of `key`. -/
inductive Frame where
  | array (items : List Json)
  | object (members : List (Bytes × Json)) (key : Bytes)

/-- What the machine expects next, inside the containers on its stack. Spellings in progress have
their newest octet first. -/
inductive ReaderState where
  | value (stack : List Frame)
  | firstItem (stack : List Frame)
  | afterItem (items : List Json) (stack : List Frame)
  | firstKey (stack : List Frame)
  | nextKey (members : List (Bytes × Json)) (stack : List Frame)
  | afterKey (members : List (Bytes × Json)) (key : Bytes) (stack : List Frame)
  | afterMember (members : List (Bytes × Json)) (stack : List Frame)
  | keyText (members : List (Bytes × Json)) (part : StringPart) (spelling : Bytes)
      (stack : List Frame)
  | text (part : StringPart) (spelling : Bytes) (stack : List Frame)
  | number (part : NumberPart) (spelling : Bytes) (stack : List Frame)
  | word (rest : Bytes) (meaning : Json) (stack : List Frame)
  | finished (value : Json)

namespace ReaderState

/-- Hands a complete value to the innermost open container. -/
def deliver (value : Json) : List Frame → ReaderState
  | [] => .finished value
  | .array items :: stack => .afterItem (value :: items) stack
  | .object members key :: stack => .afterMember ((key, value) :: members) stack

def beginValue (stack : List Frame) (b : UInt8) : Option ReaderState :=
  if b = 0x22 then some (.text .plain [] stack)
  else if b = 0x7B then some (.firstKey stack)
  else if b = 0x5B then some (.firstItem stack)
  else if b = 0x6E then some (.word (octets ['u', 'l', 'l']) .null stack)
  else if b = 0x74 then some (.word (octets ['r', 'u', 'e']) (.bool true) stack)
  else if b = 0x66 then some (.word (octets ['a', 'l', 's', 'e']) (.bool false) stack)
  else (NumberPart.first? b).map fun part => .number part [b] stack

def endItem (items : List Json) (stack : List Frame) (b : UInt8) : Option ReaderState :=
  if isBlankOctet b then some (.afterItem items stack)
  else if b = 0x2C then some (.value (.array items :: stack))
  else if b = 0x5D then some (deliver (.array items.reverse) stack)
  else none

def endMember (members : List (Bytes × Json)) (stack : List Frame) (b : UInt8) :
    Option ReaderState :=
  if isBlankOctet b then some (.afterMember members stack)
  else if b = 0x2C then some (.nextKey members stack)
  else if b = 0x7D then some (deliver (.object members.reverse) stack)
  else none

/-- The octet behind a complete value, which is how a number learns that it has ended. -/
def endValue (value : Json) (stack : List Frame) (b : UInt8) : Option ReaderState :=
  match stack with
  | [] => if isBlankOctet b then some (.finished value) else none
  | .array items :: stack => endItem (value :: items) stack b
  | .object members key :: stack => endMember ((key, value) :: members) stack b

/-- One octet: the state after it, absent where no JSON text goes on with it. -/
def feed (state : ReaderState) (b : UInt8) : Option ReaderState :=
  match state with
  | .value stack => if isBlankOctet b then some state else beginValue stack b
  | .firstItem stack =>
    if isBlankOctet b then some state
    else if b = 0x5D then some (deliver (.array []) stack)
    else beginValue (.array [] :: stack) b
  | .afterItem items stack => endItem items stack b
  | .firstKey stack =>
    if isBlankOctet b then some state
    else if b = 0x7D then some (deliver (.object []) stack)
    else if b = 0x22 then some (.keyText [] .plain [] stack)
    else none
  | .nextKey members stack =>
    if isBlankOctet b then some state
    else if b = 0x22 then some (.keyText members .plain [] stack)
    else none
  | .afterKey members key stack =>
    if isBlankOctet b then some state
    else if b = 0x3A then some (.value (.object members key :: stack))
    else none
  | .afterMember members stack => endMember members stack b
  | .keyText members part spelling stack =>
    if part = .plain ∧ b = 0x22 then some (.afterKey members spelling.reverse stack)
    else (part.next? b).map fun part => .keyText members part (b :: spelling) stack
  | .text part spelling stack =>
    if part = .plain ∧ b = 0x22 then some (deliver (.string spelling.reverse) stack)
    else (part.next? b).map fun part => .text part (b :: spelling) stack
  | .number part spelling stack =>
    match part.next? b with
    | some part => some (.number part (b :: spelling) stack)
    | none => if part.complete then endValue (.number spelling.reverse) stack b else none
  | .word rest meaning stack =>
    match rest with
    | [] => none
    | [last] => if b = last then some (deliver meaning stack) else none
    | first :: rest => if b = first then some (.word rest meaning stack) else none
  | .finished _ => if isBlankOctet b then some state else none

/-- The value a text has spelled when it ends here. A number may end with the text. -/
def result? : ReaderState → Option Json
  | .finished read => some read
  | .number part spelling [] => if part.complete then some (.number spelling.reverse) else none
  | _ => none

end ReaderState

/-- The value spelled by the octets, with blanks allowed around every token. -/
def read? (bytes : Bytes) : Option Json :=
  (bytes.foldlM ReaderState.feed (.value [])).bind ReaderState.result?

end Annals.Json
