import Annals.Binary
import Annals.Json.Record
import Annals.Time.Timestamp

/-!
# Wire forms

A type that travels has two forms, a JSON value and a run of octets, and a reader for each. The
readers answer with a value or with nothing: a malformed form has no further story to tell.
-/

namespace Annals

class Wire (α : Type) where
  toJson : α → Json
  ofJson? : Json → Option α
  toBinary : α → Bytes
  ofBinary : Binary.Reader α

namespace Wire

instance : Wire String where
  toJson := Json.ofText
  ofJson? := Json.text?
  toBinary := Binary.writeText
  ofBinary := Binary.readText

instance : Wire Bool where
  toJson := Json.bool
  ofJson? := Json.bool?
  toBinary := Binary.writeFlag
  ofBinary := Binary.readFlag

def natBelow? (bound : Nat) (value : Json) : Option Nat := do
  let n ← value.natural?
  if n < bound then some n else none

instance : Wire UInt64 where
  toJson n := Json.ofNat n.toNat
  ofJson? value := (natBelow? UInt64.size value).map UInt64.ofNat
  toBinary := Binary.writeWord
  ofBinary := Binary.readWord

instance : Wire Int64 where
  toJson n := Json.ofInt n.toInt
  ofJson? value := do
    let n ← value.integer?
    if Int64.minValue.toInt ≤ n ∧ n ≤ Int64.maxValue.toInt then some (Int64.ofInt n) else none
  toBinary := Binary.writeSigned
  ofBinary := Binary.readSigned

/-- An instant travels as its timestamp. -/
instance : Wire Instant where
  toJson instant := Json.ofText (Timestamp.write instant)
  ofJson? value := value.text?.bind Timestamp.read?
  toBinary instant := Binary.writeText (Timestamp.write instant)
  ofBinary := do
    let text ← Binary.readText
    (Timestamp.read? text : Option Instant)

/-- Octets as data: an array of numbers in JSON. -/
def octetsToJson (bytes : Bytes) : Json :=
  .array (bytes.map fun b => Json.ofNat b.toNat)

def octetsOfJson? : Json → Option Bytes
  | .array items => items.mapM fun item => (natBelow? UInt8.size item).map UInt8.ofNat
  | _ => none

end Wire

end Annals
